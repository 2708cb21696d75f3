import ClassTables.Registry.Store
import ClassTables.Proofs.Lists
/-!
# Loading classes is all or nothing

A call goes along its specifications and changes the vector and the index at each of them.  What it
has done at any moment can be said in one way (`Grown`): classes stand behind those that were there,
the index has entries for their names in front of the old ones, and none of these names was known
before.  So taking back leaves exactly what was there (`Grown.takeBack`), and classes that were there
are still found (`Grown.class?`).

Main statement: a call that fails leaves the store as it was, and a call that succeeds does what
several calls do, one after the other (`bootstrap_all_or_nothing`).
-/

namespace ClassTables

/-! ## Indexes -/

namespace NameIndex

variable {ix : NameIndex} {n : String}

theorem get?_eq_none_iff : ix.get? n = none ↔ ∀ e ∈ ix.entries, e.1 ≠ n := by
  unfold get?
  rw [Option.map_eq_none_iff, List.find?_eq_none]
  simp only [beq_iff_eq, ne_eq]

/-- Erasing one name after the other leaves the entries of all other names. -/
theorem foldl_erase : ∀ (ns : List String) (ix : NameIndex),
    ns.foldl erase ix = ⟨ix.entries.filter (·.1 ∉ ns)⟩
  | [], ix => by simp
  | n :: ns, ix => by
      rw [List.foldl_cons, foldl_erase ns, erase, List.filter_filter]
      congr 2
      funext e
      rw [Bool.eq_iff_iff]
      simp only [Bool.and_eq_true, decide_eq_true_eq, bne_iff_ne, List.mem_cons, not_or]
      exact and_comm

/-- Erasing the names of new entries takes these away, and no others when the names were not known. -/
theorem foldl_erase_append {new : List (String × Nat)} {ns : List String}
    (hnew : ∀ e ∈ new, e.1 ∈ ns) (hold : ∀ n ∈ ns, ix.get? n = none) :
    ns.foldl erase ⟨new ++ ix.entries⟩ = ix := by
  have hgone : new.filter (·.1 ∉ ns) = [] := by
    rw [List.filter_eq_nil_iff]
    intro e he
    simp [hnew e he]
  have hkept : ix.entries.filter (·.1 ∉ ns) = ix.entries := by
    rw [List.filter_eq_self]
    intro e he
    rw [decide_eq_true_eq]
    intro hmem
    exact get?_eq_none_iff.mp (hold _ hmem) e he rfl
  rw [foldl_erase, List.filter_append, hgone, hkept]
  rfl

/-- Entries for other names stand in nobody's way. -/
theorem get?_append {new : List (String × Nat)} (h : ∀ e ∈ new, e.1 ≠ n) :
    (⟨new ++ ix.entries⟩ : NameIndex).get? n = ix.get? n := by
  unfold get?
  have hnew : new.find? (·.1 == n) = none := by
    rw [List.find?_eq_none]
    intro e he
    rw [beq_iff_eq]
    exact h e he
  rw [List.find?_append, hnew, Option.none_or]

end NameIndex

/-! ## What a call has added -/

namespace ClassStore

variable {F : Type} {s s' : ClassStore F} {new : List (StoredClass F)} {c : StoredClass F}
  {spec : ClassSpec F}

/-- One store is the other one with more classes, under names that were not known. -/
structure Grown (s s' : ClassStore F) (new : List (StoredClass F)) : Prop where
  classes : s'.classes = s.classes ++ new
  index : ∃ entries, s'.index = ⟨entries ++ s.index.entries⟩ ∧
    ∀ e ∈ entries, e.1 ∈ new.map (·.name)
  fresh : ∀ n ∈ new.map (·.name), s.index.get? n = none

theorem Grown.refl (s : ClassStore F) : s.Grown s [] :=
  ⟨(List.append_nil _).symm, ⟨[], rfl, fun _ h => (nomatch h)⟩, fun _ h => (nomatch h)⟩

theorem Grown.push (h : s.Grown s' new) (hc : s'.index.get? c.name = none) :
    s.Grown (s'.push c) (new ++ [c]) := by
  obtain ⟨entries, hindex, hentries⟩ := h.index
  have hnames : (new ++ [c]).map (·.name) = new.map (·.name) ++ [c.name] := List.map_append
  refine ⟨?_, ⟨(c.name, s'.classes.length) :: entries, ?_, ?_⟩, ?_⟩
  · show s'.classes ++ [c] = _
    rw [h.classes, List.append_assoc]
  · show s'.index.insert c.name s'.classes.length = _
    rw [hindex]
    rfl
  · intro e he
    rw [hnames, List.mem_append]
    rcases List.mem_cons.mp he with rfl | he
    · exact Or.inr (List.mem_singleton.mpr rfl)
    · exact Or.inl (hentries e he)
  · intro n hn
    rw [hnames, List.mem_append, List.mem_singleton] at hn
    rcases hn with hn | rfl
    · exact h.fresh n hn
    · -- a name that is not known now was not known before
      rw [NameIndex.get?_eq_none_iff, hindex] at hc
      rw [NameIndex.get?_eq_none_iff]
      intro e he
      exact hc e (List.mem_append_right _ he)

/-- **Taking back what was added leaves what was there.** -/
theorem Grown.takeBack (h : s.Grown s' new) : s'.takeBack s.size = s := by
  obtain ⟨entries, hindex, hentries⟩ := h.index
  have hclasses : s'.classes.take s.size = s.classes := by
    rw [h.classes]
    exact List.take_left
  have hdrop : s'.classes.drop s.size = new := by
    rw [h.classes]
    exact List.drop_left
  have herase : new.foldl (fun ix c => ix.erase c.name) s'.index = s.index := by
    rw [← List.foldl_map, hindex]
    exact NameIndex.foldl_erase_append hentries h.fresh
  unfold ClassStore.takeBack
  rw [hclasses, hdrop, herase]

/-- **Classes that were there are still found.** -/
theorem Grown.class? (h : s.Grown s' new) {n : String} (hc : s.class? n = some c) :
    s'.class? n = some c := by
  obtain ⟨entries, hindex, hentries⟩ := h.index
  obtain ⟨i, hi, hget⟩ := Option.bind_eq_some_iff.mp hc
  have hother : ∀ e ∈ entries, e.1 ≠ n := by
    rintro e he rfl
    exact nomatch hi.symm.trans (h.fresh _ (hentries e he))
  obtain ⟨hlt, -⟩ := List.getElem?_eq_some_iff.mp hget
  unfold ClassStore.class?
  rw [hindex, NameIndex.get?_append hother, hi, Option.bind_some, h.classes,
    List.getElem?_append_left hlt]
  exact hget

/-! ## Along the specifications -/

/-- A class that can be loaded has a name that is not known. -/
theorem newClass_name (h : s.newClass spec = .ok c) :
    c.name = spec.name ∧ s.index.get? spec.name = none := by
  unfold newClass at h
  cases hname : s.index.get? spec.name with
  | some i =>
      rw [hname] at h
      cases h
  | none =>
      rw [hname] at h
      change (s.parentPlace spec >>= _) = _ at h
      obtain ⟨place, -, h⟩ := bind_eq_ok_iff.mp h
      obtain ⟨table, -, h⟩ := bind_eq_ok_iff.mp h
      cases h
      exact ⟨rfl, rfl⟩

theorem Grown.register (h : s.Grown s' new) (spec : ClassSpec F) :
    ∃ more, s.Grown (s'.register spec).1 more := by
  unfold ClassStore.register
  cases hc : s'.newClass spec with
  | error e => exact ⟨new, h⟩
  | ok c =>
      obtain ⟨hname, hnew⟩ := newClass_name hc
      exact ⟨new ++ [c], h.push (hname ▸ hnew)⟩

/-- Whenever a call stops, it has added classes of new names. -/
theorem Grown.registerAll : ∀ (specs : List (ClassSpec F)) {s' : ClassStore F}
    {new : List (StoredClass F)}, s.Grown s' new → ∃ more, s.Grown (s'.registerAll specs).1 more
  | [], _, new, h => ⟨new, h⟩
  | spec :: specs, s', new, h => by
      obtain ⟨more, hstep⟩ := h.register spec
      unfold ClassStore.registerAll
      cases hreg : s'.register spec with
      | mk s₁ res =>
          rw [hreg] at hstep
          cases res with
          | error e => exact ⟨more, hstep⟩
          | ok u => exact Grown.registerAll specs hstep

theorem exists_grown (s : ClassStore F) (specs : List (ClassSpec F)) :
    ∃ new, s.Grown (s.registerAll specs).1 new :=
  Grown.registerAll specs (Grown.refl s)

theorem registerAll_append (a b : List (ClassSpec F)) : ∀ s : ClassStore F,
    s.registerAll (a ++ b) = match s.registerAll a with
      | (s₁, .ok ()) => s₁.registerAll b
      | (s₁, .error e) => (s₁, .error e) := by
  induction a with
  | nil => intro s; rfl
  | cons spec a ih =>
      intro s
      rw [List.cons_append, ClassStore.registerAll, ClassStore.registerAll]
      cases s.register spec with
      | mk s₁ res =>
          cases res with
          | error e => rfl
          | ok u => exact ih s₁

/-! ## Calls -/

theorem bootstrap_eq_ok_iff {specs : List (ClassSpec F)} :
    s.bootstrap specs = (s', .ok ()) ↔ s.registerAll specs = (s', .ok ()) := by
  unfold bootstrap
  cases s.registerAll specs with
  | mk s₁ res => cases res <;> simp

theorem bootstrap_eq_error {specs : List (ClassSpec F)} {e : RegisterError}
    (h : s.bootstrap specs = (s', .error e)) : s' = s := by
  obtain ⟨new, hgrown⟩ := exists_grown s specs
  unfold bootstrap at h
  cases hall : s.registerAll specs with
  | mk s₁ res =>
      rw [hall] at h hgrown
      cases res with
      | ok u => cases h
      | error e' =>
          cases h
          exact hgrown.takeBack

/-- Loads classes by a call for each of them, until one call fails. -/
def bootstrapEach (s : ClassStore F) : List (ClassSpec F) → ClassStore F × Except RegisterError Unit
  | [] => (s, .ok ())
  | spec :: specs =>
    match s.bootstrap [spec] with
    | (s', .ok ()) => s'.bootstrapEach specs
    | (s', .error e) => (s', .error e)

theorem bootstrap_singleton_eq_ok_iff :
    s.bootstrap [spec] = (s', .ok ()) ↔ s.register spec = (s', .ok ()) := by
  rw [bootstrap_eq_ok_iff, registerAll]
  cases s.register spec with
  | mk s₁ res => cases res <;> simp [registerAll]

/-- One call at a time loads what one call loads. -/
theorem bootstrapEach_eq_ok_iff : ∀ {specs : List (ClassSpec F)} {s : ClassStore F},
    s.bootstrapEach specs = (s', .ok ()) ↔ s.registerAll specs = (s', .ok ())
  | [], s => Iff.rfl
  | spec :: specs, s => by
      have hone : ∀ s₁, s.bootstrap [spec] = (s₁, .ok ()) ↔ s.register spec = (s₁, .ok ()) :=
        fun _ => bootstrap_singleton_eq_ok_iff
      unfold bootstrapEach registerAll
      cases hb : s.bootstrap [spec] with
      | mk s₁ res =>
          cases res with
          | ok u =>
              rw [(hone s₁).mp hb]
              exact bootstrapEach_eq_ok_iff
          | error e =>
              cases hr : s.register spec with
              | mk s₂ res' =>
                  cases res' with
                  | ok u => exact nomatch hb.symm.trans ((hone s₂).mpr hr)
                  | error e' => simp

/-- **Loading classes is all or nothing.**  A call that fails leaves the store as it was: its size,
its classes and whatever is looked up in it.  After a call that succeeds the classes that were loaded
before are where they were and are found under their names, and the store is what a call for each
class makes of it.  A call for two lists succeeds exactly when a call for the first one and then a
call for the second one do, and leaves the same store. -/
theorem bootstrap_all_or_nothing (s : ClassStore F) :
    (∀ specs s' e, s.bootstrap specs = (s', .error e) → s' = s) ∧
      (∀ specs s', s.bootstrap specs = (s', .ok ()) → s.classes <+: s'.classes ∧
        (∀ n c, s.class? n = some c → s'.class? n = some c) ∧
          s.bootstrapEach specs = (s', .ok ())) ∧
        ∀ a b s', s.bootstrap (a ++ b) = (s', .ok ()) ↔
          ∃ s₁, s.bootstrap a = (s₁, .ok ()) ∧ s₁.bootstrap b = (s', .ok ()) := by
  refine ⟨fun specs s' e => bootstrap_eq_error, fun specs s' h => ?_, fun a b s' => ?_⟩
  · rw [bootstrap_eq_ok_iff] at h
    obtain ⟨new, hgrown⟩ := exists_grown s specs
    rw [h] at hgrown
    exact ⟨hgrown.classes ▸ List.prefix_append _ _, fun n c => hgrown.class?,
      bootstrapEach_eq_ok_iff.mpr h⟩
  · simp only [bootstrap_eq_ok_iff, registerAll_append]
    cases s.registerAll a with
    | mk s₁ res => cases res <;> simp

/-! ### A call that fails half way -/

/-- The root class of the object system. -/
def rootSpec : ClassSpec String :=
  { name := "Clownfish::Obj", parcel := "Clownfish", ivarsSize := 16, ivarsAlign := 8
    novel := [⟨"Destroy", .implemented "cfish_Obj_Destroy_IMP"⟩] }

def animalSpec : ClassSpec String :=
  { name := "Animal", parcel := "Animal", parent := some "Clownfish::Obj", ivarsSize := 8
    ivarsAlign := 8, inherited := ["Destroy"], novel := [⟨"Speak", .abstract⟩] }

/-- A class whose parent is nowhere. -/
def orphanSpec : ClassSpec String :=
  { name := "Orphan", parcel := "Animal", parent := some "Missing" }

def rootStore : ClassStore String := (({} : ClassStore String).bootstrap [rootSpec]).1

/-- The first class of the call fits and is taken back again. -/
theorem orphan_taken_back :
    (rootStore.register animalSpec).2 = .ok () ∧
      rootStore.bootstrap [animalSpec, orphanSpec] =
        (rootStore, .error (.parentNotBootstrapped "Orphan" "Missing")) := by
  have hfits : (rootStore.register animalSpec).2 = .ok () := by decide +kernel
  have hfails : (rootStore.bootstrap [animalSpec, orphanSpec]).2 =
      .error (.parentNotBootstrapped "Orphan" "Missing") := by decide +kernel
  refine ⟨hfits, ?_⟩
  cases hb : rootStore.bootstrap [animalSpec, orphanSpec] with
  | mk s' res =>
      rw [hb] at hfails
      subst hfails
      rw [(bootstrap_all_or_nothing rootStore).1 _ _ _ hb]

end ClassStore

end ClassTables
