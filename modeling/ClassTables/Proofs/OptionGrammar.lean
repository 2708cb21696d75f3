import ClassTables.Proofs.Lists
import ClassTables.Run.Options
import Mathlib.Data.List.Induction
import Mathlib.Data.List.TakeWhile
/-!
# The grammar of the command line

Arguments are read from the front, one setting after the other.  Which arguments spell a setting is
said here without regard to how they are read (`Setting.SpelledAs`): a value stands in an argument
of its own, whatever it looks like, or behind the first equals sign of the same one.

The reader knows one spelling more.  It cuts every argument at the first equals sign before it
looks at the flag, and forgets what follows where the flag takes no value: `--dry-run=no` asks for a
dry run (`Setting.ReadFrom`, `valuedDryRun_accepted`).

Main statement: `parse_accepts_readable`.
-/

namespace ClassTables

/-! ## Cutting an argument -/

namespace Text

variable {d : Char} {cs front back : List Char}

/-- Text is cut at the first mark. -/
theorem splitOnce?_append_cons (h : d ∉ front) :
    splitOnce? d (front ++ d :: back) = some (front, back) := by
  have hall : ∀ c ∈ front, (c != d) = true := fun c hc => bne_iff_ne.mpr fun heq => h (heq ▸ hc)
  unfold splitOnce?
  rw [List.dropWhile_append_of_pos hall, List.takeWhile_append_of_pos hall]
  simp

theorem splitOnce?_eq_none (h : d ∉ cs) : splitOnce? d cs = none := by
  have hall : ∀ c ∈ cs, (c != d) = true := fun c hc => bne_iff_ne.mpr fun heq => h (heq ▸ hc)
  unfold splitOnce?
  rw [List.dropWhile_eq_nil_iff.mpr hall]

/-- The mark and what stands on both sides of it make the text. -/
theorem append_cons_of_splitOnce? (h : splitOnce? d cs = some (front, back)) :
    cs = front ++ d :: back := by
  unfold splitOnce? at h
  split at h
  · cases h
  · next c rest hdrop =>
      cases h
      have hc : c = d := by
        have hhead := List.head?_dropWhile_not (· != d) cs
        rw [hdrop] at hhead
        simpa using hhead
      subst hc
      rw [← hdrop, List.takeWhile_append_dropWhile]

end Text

/-- The name of an option: two dashes first, and no equals sign. -/
def IsFlagName (name : String) : Prop :=
  (∃ cs, name.toList = '-' :: '-' :: cs) ∧ '=' ∉ name.toList

theorem ValueFlag.isFlagName (f : ValueFlag) : IsFlagName f.name := by
  cases f <;> exact ⟨⟨_, rfl⟩, by decide⟩

theorem isFlagName_dryRun : IsFlagName dryRunName := ⟨⟨_, rfl⟩, by decide⟩

theorem splitArg_of_flagName {name : String} (h : IsFlagName name) :
    splitArg name = (name, none) := by
  unfold splitArg
  rw [Text.splitOnce?_eq_none h.2]

/-- The value of an option is what follows the first equals sign, further ones included. -/
theorem splitArg_joined {name : String} (h : IsFlagName name) (text : String) :
    splitArg (name ++ "=" ++ text) = (name, some text) := by
  have hchars : (name ++ "=" ++ text).toList = name.toList ++ '=' :: text.toList := by simp
  obtain ⟨⟨cs, hcs⟩, hmark⟩ := h
  unfold splitArg
  rw [hchars, Text.splitOnce?_append_cons hmark, hcs]
  show (String.ofList ('-' :: '-' :: cs), some (String.ofList text.toList)) = _
  rw [← hcs, String.ofList_toList, String.ofList_toList]

theorem eq_of_splitArg_none {arg flag : String} (h : splitArg arg = (flag, none)) : arg = flag := by
  unfold splitArg at h
  split at h
  · cases h
  · cases h
    rfl

theorem eq_of_splitArg_some {arg flag text : String} (h : splitArg arg = (flag, some text)) :
    arg = flag ++ "=" ++ text := by
  unfold splitArg at h
  split at h
  · next flag value hcut =>
      cases h
      rw [← String.toList_inj, Text.append_cons_of_splitOnce? hcut]
      simp
  · cases h

/-! ## The arguments of a setting -/

/-- The arguments that spell a setting. -/
inductive Setting.SpelledAs : Setting → List String → Prop
  /-- The value is the next argument, whatever it looks like. -/
  | apart (f : ValueFlag) (text : String) : SpelledAs (.value f text) [f.name, text]
  /-- The value stands behind an equals sign; it may be empty and hold further ones. -/
  | joined (f : ValueFlag) (text : String) : SpelledAs (.value f text) [f.name ++ "=" ++ text]
  | dryRun : SpelledAs .dryRun [dryRunName]

/-- The arguments that are read as a setting: those that spell it, and for a dry run also its name
with a value, which is not looked at. -/
def Setting.ReadFrom (s : Setting) (part : List String) : Prop :=
  s.SpelledAs part ∨ s = .dryRun ∧ ∃ text, part = [dryRunName ++ "=" ++ text]

/-- The arguments are those of the settings, one behind the other. -/
def SpelledInTurn (spells : Setting → List String → Prop) (args : List String)
    (ss : List Setting) : Prop :=
  ∃ parts, args = parts.flatten ∧ List.Forall₂ spells ss parts

section Reading

variable {args rest part : List String} {s : Setting} {ss : List Setting}

/-! One step of the reader, for each way to spell a setting. -/

theorem readSettings_dryRun {arg : String} (h : (splitArg arg).1 = dryRunName) :
    readSettings (arg :: rest) = (readSettings rest).map (.dryRun :: ·) := by
  rw [readSettings.eq_def]
  exact if_pos h

theorem readSettings_apart (f : ValueFlag) (text : String) :
    readSettings (f.name :: text :: rest) = (readSettings rest).map (.value f text :: ·) := by
  have hne : f.name ≠ dryRunName := by cases f <;> decide
  rw [readSettings.eq_def]
  simp only [splitArg_of_flagName f.isFlagName, if_neg hne, ValueFlag.ofName?_eq_some_iff.mpr rfl]

theorem readSettings_joined (f : ValueFlag) (text : String) :
    readSettings ((f.name ++ "=" ++ text) :: rest) =
      (readSettings rest).map (.value f text :: ·) := by
  have hne : f.name ≠ dryRunName := by cases f <;> decide
  rw [readSettings.eq_def]
  simp only [splitArg_joined f.isFlagName, if_neg hne, ValueFlag.ofName?_eq_some_iff.mpr rfl]

/-- **The reader takes the arguments of one setting and goes on behind them.** -/
theorem readSettings_append (h : s.ReadFrom part) (rest : List String) :
    readSettings (part ++ rest) = (readSettings rest).map (s :: ·) := by
  rcases h with (⟨f, text⟩ | ⟨f, text⟩ | _) | ⟨rfl, text, rfl⟩
  · exact readSettings_apart f text
  · exact readSettings_joined f text
  · exact readSettings_dryRun (congrArg Prod.fst (splitArg_of_flagName isFlagName_dryRun))
  · exact readSettings_dryRun (congrArg Prod.fst (splitArg_joined isFlagName_dryRun text))

theorem SpelledInTurn.nil (spells : Setting → List String → Prop) : SpelledInTurn spells [] [] :=
  ⟨[], rfl, .nil⟩

theorem SpelledInTurn.cons {spells : Setting → List String → Prop} (hpart : spells s part)
    (h : SpelledInTurn spells rest ss) : SpelledInTurn spells (part ++ rest) (s :: ss) := by
  obtain ⟨parts, rfl, hparts⟩ := h
  exact ⟨part :: parts, rfl, .cons hpart hparts⟩

/-- What is read was spelled. -/
theorem spelledInTurn_of_readSettings (h : readSettings args = .ok ss) :
    SpelledInTurn Setting.ReadFrom args ss := by
  fun_induction readSettings args generalizing ss with
  | case1 =>
      cases h
      exact .nil _
  | case2 arg rest hname ih =>
      obtain ⟨ss, hrest, rfl⟩ := map_eq_ok_iff.mp h
      have hpart : Setting.dryRun.ReadFrom [arg] := by
        cases hcut : (splitArg arg).2 with
        | none =>
            rw [eq_of_splitArg_none (Prod.ext hname hcut)]
            exact Or.inl .dryRun
        | some text =>
            rw [eq_of_splitArg_some (Prod.ext hname hcut)]
            exact Or.inr ⟨rfl, text, rfl⟩
      exact .cons hpart (ih hrest)
  | case3 => cases h
  | case4 arg hname flag hflag text rest hcut ih =>
      obtain ⟨ss, hrest, rfl⟩ := map_eq_ok_iff.mp h
      have hflag := ValueFlag.ofName?_eq_some_iff.mp hflag
      rw [eq_of_splitArg_some (Prod.ext hflag hcut)]
      exact .cons (Or.inl (.joined flag text)) (ih hrest)
  | case5 arg hname flag hflag text rest hcut ih =>
      obtain ⟨ss, hrest, rfl⟩ := map_eq_ok_iff.mp h
      have hflag := ValueFlag.ofName?_eq_some_iff.mp hflag
      rw [eq_of_splitArg_none (Prod.ext hflag hcut)]
      exact .cons (Or.inl (.apart flag text)) (ih hrest)
  | case6 => cases h

/-- **What is read is what the arguments spell.** -/
theorem readSettings_eq_ok_iff :
    readSettings args = .ok ss ↔ SpelledInTurn Setting.ReadFrom args ss := by
  refine ⟨spelledInTurn_of_readSettings, ?_⟩
  rintro ⟨parts, rfl, hparts⟩
  induction hparts with
  | nil => rfl
  | cons hpart _ ih =>
      rw [List.flatten_cons, readSettings_append hpart, ih]
      rfl

end Reading

/-! ## Options -/

/-- What settings say of an option: the value of the last of them that sets it, or nothing. -/
def ValueFlag.Holds (f : ValueFlag) (ss : List Setting) : Option String → Prop
  | some text => ∃ front back, ss = front ++ .value f text :: back ∧ ∀ t, .value f t ∉ back
  | none => ∀ t, .value f t ∉ ss

/-- Every option holds what the settings say of it. -/
structure Options.Hold (o : Options) (ss : List Setting) : Prop where
  manifest : ValueFlag.manifest.Holds ss (some o.manifest)
  dest : ValueFlag.dest.Holds ss o.dest
  header : ValueFlag.header.Holds ss o.header
  footer : ValueFlag.footer.Holds ss o.footer
  dryRun : o.dryRun = true ↔ .dryRun ∈ ss

section Options

variable {args : List String} {ss : List Setting} {f : ValueFlag} {o : Options}

/-- The last setting of an option gives its value. -/
theorem ValueFlag.holds_append_value (f : ValueFlag) (ss : List Setting) (text : String) :
    f.Holds (ss ++ [.value f text]) (some text) :=
  ⟨ss, [], rfl, fun _ h => nomatch h⟩

/-- Any other setting leaves the value as it was. -/
theorem ValueFlag.Holds.append_other {v : Option String} {s : Setting} (h : f.Holds ss v)
    (hs : ∀ t, s ≠ .value f t) : f.Holds (ss ++ [s]) v := by
  cases v with
  | none =>
      intro t ht
      rcases List.mem_append.mp ht with ht | ht
      · exact h t ht
      · exact hs t (List.mem_singleton.mp ht).symm
  | some text =>
      obtain ⟨front, back, rfl, hback⟩ := h
      refine ⟨front, back ++ [s], by simp, fun t ht => ?_⟩
      rcases List.mem_append.mp ht with ht | ht
      · exact hback t ht
      · exact hs t (List.mem_singleton.mp ht).symm

/-- **The value of an option is that of its last setting.** -/
theorem holds_lastValue? (ss : List Setting) (f : ValueFlag) : f.Holds ss (lastValue? ss f) := by
  induction ss using List.reverseRecOn with
  | nil => exact fun _ h => nomatch h
  | append_singleton ss s ih =>
      cases s with
      | dryRun =>
          have hlast : lastValue? (ss ++ [.dryRun]) f = lastValue? ss f := by simp [lastValue?]
          rw [hlast]
          exact ih.append_other fun _ h => nomatch h
      | value g text =>
          by_cases hg : g = f
          · have hlast : lastValue? (ss ++ [.value g text]) f = some text := by
              simp [lastValue?, hg]
            rw [hlast, hg]
            exact f.holds_append_value ss text
          · have hlast : lastValue? (ss ++ [.value g text]) f = lastValue? ss f := by
              simp [lastValue?, hg]
            rw [hlast]
            exact ih.append_other fun t heq => hg (Setting.value.inj heq).1

theorem ofSettings?_eq_some (h : Options.ofSettings? ss = some o) : o.Hold ss := by
  unfold Options.ofSettings? at h
  obtain ⟨manifest, hmanifest, rfl⟩ := Option.map_eq_some_iff.mp h
  refine ⟨?_, holds_lastValue? ss .dest, holds_lastValue? ss .header, holds_lastValue? ss .footer,
    ?_⟩
  · exact hmanifest ▸ holds_lastValue? ss .manifest
  · simp

theorem exists_ofSettings?_iff :
    (∃ o, Options.ofSettings? ss = some o) ↔ ∃ text, .value .manifest text ∈ ss := by
  have hholds := holds_lastValue? ss .manifest
  unfold Options.ofSettings?
  cases hlast : lastValue? ss .manifest with
  | none =>
      rw [hlast] at hholds
      exact ⟨fun ⟨_, h⟩ => (nomatch h), fun ⟨t, ht⟩ => absurd ht (hholds t)⟩
  | some manifest =>
      rw [hlast] at hholds
      obtain ⟨front, back, rfl, -⟩ := hholds
      exact ⟨fun _ => ⟨manifest, by simp⟩, fun _ => ⟨_, rfl⟩⟩

theorem parse_eq_ok_iff : Options.parse args = .ok o ↔
    ∃ ss, SpelledInTurn Setting.ReadFrom args ss ∧ Options.ofSettings? ss = some o := by
  unfold Options.parse
  rw [bind_eq_ok_iff]
  refine exists_congr fun ss => and_congr readSettings_eq_ok_iff ?_
  cases Options.ofSettings? ss with
  | none => exact ⟨fun h => (nomatch h), fun h => (nomatch h)⟩
  | some o' => simp

end Options

/-- **The arguments that are accepted, and the options they give.**  Arguments are accepted exactly
if they are a sequence of settings, one of which names a manifest.  A sequence of settings is read
in one way only, and each option holds what its last setting says. -/
theorem parse_accepts_readable (args : List String) :
    ((∃ o, Options.parse args = .ok o) ↔
      ∃ ss, SpelledInTurn Setting.ReadFrom args ss ∧ ∃ text, .value .manifest text ∈ ss) ∧
    ∀ o, Options.parse args = .ok o → ∀ ss, SpelledInTurn Setting.ReadFrom args ss → o.Hold ss := by
  constructor
  · simp only [parse_eq_ok_iff, ← exists_ofSettings?_iff]
    constructor
    · rintro ⟨o, ss, hss, ho⟩
      exact ⟨ss, hss, o, ho⟩
    · rintro ⟨ss, hss, o, ho⟩
      exact ⟨o, ss, hss, ho⟩
  · intro o ho ss hss
    obtain ⟨ss', hss', ho⟩ := parse_eq_ok_iff.mp ho
    have hsame : ss' = ss := Except.ok.inj
      ((readSettings_eq_ok_iff.mpr hss').symm.trans (readSettings_eq_ok_iff.mpr hss))
    exact hsame ▸ ofSettings?_eq_some ho

/-- **A value for `--dry-run` is accepted,** though no setting is spelled that way, and `no` is
taken for a yes. -/
theorem valuedDryRun_accepted :
    Options.parse ["--manifest", "zoo.json", "--dry-run=no"] =
        .ok { manifest := "zoo.json", dryRun := true } ∧
      ¬ ∃ ss, SpelledInTurn Setting.SpelledAs ["--manifest", "zoo.json", "--dry-run=no"] ss := by
  refine ⟨by decide, ?_⟩
  rintro ⟨ss, parts, hparts, hspelled⟩
  -- the reader knows these spellings too, so the settings are the two that it finds
  have hread : readSettings ["--manifest", "zoo.json", "--dry-run=no"] = .ok ss :=
    readSettings_eq_ok_iff.mpr ⟨parts, hparts, hspelled.imp fun _ _ h => Or.inl h⟩
  have hfound : readSettings ["--manifest", "zoo.json", "--dry-run=no"] =
      .ok [.value .manifest "zoo.json", .dryRun] := by decide
  obtain rfl := Except.ok.inj (hfound.symm.trans hread)
  -- so the last argument would be the bare name
  rcases hspelled with _ | ⟨_, _ | ⟨hlast, _ | _⟩⟩
  cases hlast
  have hends := congrArg List.getLast? hparts
  simp [dryRunName] at hends

end ClassTables
