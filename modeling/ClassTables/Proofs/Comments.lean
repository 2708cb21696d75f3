import ClassTables.Output.Frame
import Mathlib.Data.List.Infix
/-!
# Comments

A comment of C runs from its opening mark to the first terminator behind it.  So a text is one whole
comment (`IsComment`) when nothing between the marks holds a terminator (`StaysOpen`).  A text that
is to be shown as a comment takes one of two ways.  A comment already, it is printed line by line,
which drops carriage returns; anything else has its terminators broken up, is cut into lines, and is
put between marks with a star in front of each line.  On both ways a terminator could come up where
pieces meet.  None does: pieces meet at blanks and newlines (`staysOpen_append_cons`).

Main statements: what is printed for a text is one comment, at any indentation for a text that is none
before (`printAt_comment`), and for any text at the margin (`print_commentItem`).  At any indentation
the terminator at its end is the only one (`comment_terminated_once`).
-/

namespace ClassTables

/-! ## Pairs of characters in a text -/

namespace Text

variable {a b c d : Char} {x y cs : List Char}

theorem hasPair_cons_of_ne (h : c ≠ a) : hasPair a b (c :: cs) = hasPair a b cs := by
  cases cs with
  | nil => rfl
  | cons d cs => simp [hasPair, h]

/-- A pair is found where its characters stand next to each other. -/
theorem hasPair_iff : hasPair a b cs = true ↔ [a, b] <:+: cs := by
  induction cs with
  | nil => simp [hasPair]
  | cons c cs ih =>
      rw [List.infix_cons_iff, ← ih]
      cases cs with
      | nil => simp [hasPair]
      | cons d cs =>
          rw [hasPair, Bool.or_eq_true, Bool.and_eq_true, beq_iff_eq, beq_iff_eq]
          refine or_congr_left ?_
          rw [List.cons_prefix_cons, List.cons_prefix_cons]
          simp [eq_comm]

/-- A character that is in no pair keeps apart what stands before and behind it. -/
theorem hasPair_append_cons (ha : c ≠ a) (hb : c ≠ b) :
    hasPair a b (x ++ c :: y) = (hasPair a b x || hasPair a b y) := by
  induction x with
  | nil => simp [hasPair, hasPair_cons_of_ne ha]
  | cons d x ih =>
      cases x with
      | nil =>
          have hcb : (c == b) = false := beq_false_of_ne hb
          rw [List.singleton_append, hasPair, hasPair_cons_of_ne ha, hcb, Bool.and_false]
          rfl
      | cons e x =>
          rw [List.cons_append, List.cons_append, hasPair, ← List.cons_append, ih, hasPair,
            Bool.or_assoc]

/-! ### Replacing pairs -/

theorem replacePair_cons_of_ne {new : List Char} (h : c ≠ a) :
    replacePair a b new (c :: cs) = c :: replacePair a b new cs := by
  cases cs with
  | nil => rfl
  | cons d cs => rw [replacePair, if_neg fun hc => h hc.1]

/-- What does not start with the second character can be replaced apart. -/
theorem replacePair_append_cons {new : List Char} (h : c ≠ b) (x : List Char) :
    replacePair a b new (x ++ c :: y) = replacePair a b new x ++ replacePair a b new (c :: y) := by
  induction x using replacePair.induct (a := a) (b := b) with
  | case1 d e x hpair ih =>
      rw [List.cons_append, List.cons_append, replacePair, if_pos hpair, ih, replacePair,
        if_pos hpair, List.append_assoc]
  | case2 d e x hpair ih =>
      rw [List.cons_append, List.cons_append, replacePair, if_neg hpair, ← List.cons_append, ih,
        replacePair, if_neg hpair, List.cons_append]
  | case3 x hshort =>
      match x, hshort with
      | [], _ => rfl
      | [d], _ =>
          rw [List.singleton_append, replacePair, if_neg fun hc => h hc.2]
          rfl
      | d :: e :: x, hshort => exact absurd rfl (hshort d e x)

/-! ### Cutting into lines -/

theorem pieces_cons_of_not {p : Char → Bool} {w : List Char} {ws : List (List Char)}
    (hc : p c = false) (h : pieces p cs = w :: ws) : pieces p (c :: cs) = (c :: w) :: ws := by
  rw [pieces, hc, h]
  rfl

/-- The first piece stands at the front of the text. -/
theorem isPrefix_of_pieces {p : Char → Bool} {w : List Char} {ws : List (List Char)}
    (h : pieces p cs = w :: ws) : w <+: cs := by
  induction cs generalizing w ws with
  | nil =>
      cases h
      exact List.prefix_rfl
  | cons c cs ih =>
      cases hc : p c with
      | true =>
          rw [pieces, if_pos hc] at h
          cases h
          exact List.nil_prefix
      | false =>
          obtain ⟨v, vs, hv⟩ := List.exists_cons_of_ne_nil (pieces_ne_nil p cs)
          rw [pieces_cons_of_not hc hv] at h
          cases h
          exact (List.prefix_cons_inj c).mpr (ih hv)

theorem infix_of_mem_pieces {p : Char → Bool} {w : List Char} (hw : w ∈ pieces p cs) : w <:+: cs := by
  induction cs generalizing w with
  | nil =>
      rw [pieces, List.mem_singleton] at hw
      exact hw ▸ List.nil_infix
  | cons c cs ih =>
      obtain ⟨v, vs, hv⟩ := List.exists_cons_of_ne_nil (pieces_ne_nil p cs)
      cases hc : p c with
      | true =>
          rw [pieces, if_pos hc] at hw
          rcases List.mem_cons.mp hw with rfl | hw
          · exact List.nil_infix
          · exact List.infix_cons (ih hw)
      | false =>
          have hfirst := pieces_cons_of_not hc hv
          rw [hfirst] at hw
          rcases List.mem_cons.mp hw with rfl | hw
          · exact (isPrefix_of_pieces hfirst).isInfix
          · exact List.infix_cons (ih (hv ▸ List.mem_cons_of_mem v hw))

theorem dropReturn_cons (h : cs ≠ []) : dropReturn (c :: cs) = c :: dropReturn cs := by
  obtain ⟨cs, d, rfl⟩ := List.eq_nil_or_concat cs |>.resolve_left h
  by_cases hd : d = '\r'
  · simp [dropReturn, hd]
  · simp [dropReturn, hd]

theorem dropReturn_isPrefix (cs : List Char) : dropReturn cs <+: cs := by
  rcases List.eq_nil_or_concat cs with rfl | ⟨cs, d, rfl⟩
  · exact List.prefix_rfl
  · by_cases hd : d = '\r'
    · simp [dropReturn, hd]
    · simp [dropReturn, hd]

/-- A line stands at the front of a stretch between newlines. -/
theorem isPrefix_of_mem_lineChars : ∀ {ws : List (List Char)} {l : List Char}, l ∈ lineChars ws →
    ∃ w ∈ ws, l <+: w
  | [], _, hl => nomatch hl
  | [w], l, hl => by
      rw [lineChars] at hl
      split at hl
      · cases hl
      · exact ⟨w, List.mem_cons_self, List.mem_singleton.mp hl ▸ List.prefix_rfl⟩
  | w :: v :: ws, l, hl => by
      rw [lineChars, List.mem_cons] at hl
      · rcases hl with rfl | hl
        · exact ⟨w, List.mem_cons_self, dropReturn_isPrefix w⟩
        · obtain ⟨u, hu, hprefix⟩ := isPrefix_of_mem_lineChars hl
          exact ⟨u, List.mem_cons_of_mem w hu, hprefix⟩
      · exact List.cons_ne_nil v ws

theorem lineChars_cons {w : List Char} {ws : List (List Char)} (h : ws ≠ []) :
    lineChars (w :: ws) = dropReturn w :: lineChars ws := by
  cases ws with
  | nil => exact absurd rfl h
  | cons v ws => rfl

/-- What stands in front of more of a line stands in front of the lines. -/
theorem flatMap_lineChars_cons {w : List Char} {ws : List (List Char)} (hw : w ≠ []) :
    (lineChars ((c :: w) :: ws)).flatMap (· ++ ['\n']) =
      c :: (lineChars (w :: ws)).flatMap (· ++ ['\n']) := by
  cases ws with
  | nil => simp [lineChars, hw]
  | cons v ws =>
      rw [lineChars_cons (List.cons_ne_nil v ws), lineChars_cons (List.cons_ne_nil v ws),
        dropReturn_cons hw]
      rfl

/-- **The lines of a text, each ended by a newline,** are the text without the carriage returns in
front of newlines. -/
theorem flatMap_lineChars (hne : cs ≠ []) (hlast : cs.getLast? ≠ some '\n') :
    (lineChars (pieces (· == '\n') cs)).flatMap (· ++ ['\n']) =
      replacePair '\r' '\n' ['\n'] cs ++ ['\n'] := by
  induction cs with
  | nil => exact absurd rfl hne
  | cons c cs ih =>
      have hpieces := pieces_ne_nil (· == '\n') cs
      cases cs with
      | nil =>
          have hc : (c == '\n') = false := by simpa using hlast
          simp [pieces, hc, lineChars, replacePair]
      | cons d cs =>
          have ih := ih (List.cons_ne_nil d cs) (List.getLast?_cons_cons ▸ hlast)
          by_cases hc : c = '\n'
          · have hcut : pieces (· == '\n') (c :: d :: cs) = [] :: pieces (· == '\n') (d :: cs) := by
              simp [pieces, hc]
            rw [hcut, lineChars_cons hpieces, List.flatMap_cons, ih, hc,
              replacePair_cons_of_ne (c := '\n') (by decide)]
            rfl
          · have hc' : (c == '\n') = false := beq_false_of_ne hc
            by_cases hd : d = '\n'
            · subst hd
              have hcut : pieces (· == '\n') ('\n' :: cs) = [] :: pieces (· == '\n') cs := rfl
              have hws := pieces_ne_nil (· == '\n') cs
              rw [hcut, lineChars_cons hws, List.flatMap_cons,
                replacePair_cons_of_ne (c := '\n') (by decide)] at ih
              have hrest : (lineChars (pieces (· == '\n') cs)).flatMap (· ++ ['\n']) =
                  replacePair '\r' '\n' ['\n'] cs ++ ['\n'] := (List.cons.inj ih).2
              rw [pieces_cons_of_not (p := (· == '\n')) hc' hcut, lineChars_cons hws,
                List.flatMap_cons, hrest]
              by_cases hr : c = '\r'
              · rw [hr, replacePair, if_pos ⟨rfl, rfl⟩]
                rfl
              · have hkeep : dropReturn [c] = [c] := by simp [dropReturn, hr]
                rw [hkeep, replacePair_cons_of_ne hr,
                  replacePair_cons_of_ne (c := '\n') (by decide)]
                rfl
            · obtain ⟨w, ws, hw⟩ := List.exists_cons_of_ne_nil (pieces_ne_nil (· == '\n') cs)
              have hcut := pieces_cons_of_not (p := (· == '\n')) (beq_false_of_ne hd) hw
              have hpair : ¬ (c = '\r' ∧ d = '\n') := fun h => hd h.2
              rw [pieces_cons_of_not (p := (· == '\n')) hc' hcut,
                flatMap_lineChars_cons (List.cons_ne_nil d w), ← hcut, ih, replacePair, if_neg hpair]
              rfl

end Text

/-! ## Comments of C -/

/-- What follows the first terminator. -/
def afterTerminator? : List Char → Option (List Char)
  | '*' :: '/' :: rest => some rest
  | _ :: cs => afterTerminator? cs
  | [] => none

/-- What follows the comment that a text starts with. -/
def afterComment? : List Char → Option (List Char)
  | '/' :: '*' :: rest => afterTerminator? rest
  | _ => none

/-- The text is one comment and nothing else. -/
def IsComment (s : String) : Prop := afterComment? s.toList = some []

/-- The star of the opening mark does not close the comment. -/
example : afterComment? "/*/ a */b".toList = some ['b'] := by decide

/-- Inside a comment the text ends it nowhere. -/
abbrev StaysOpen (cs : List Char) : Prop := Text.hasPair '*' '/' cs = false

section Open

variable {c : Char} {x y cs : List Char}

theorem afterTerminator?_cons (h : ¬ (c = '*' ∧ cs.head? = some '/')) :
    afterTerminator? (c :: cs) = afterTerminator? cs := by
  rw [afterTerminator?]
  rintro rest rfl rfl
  exact h ⟨rfl, rfl⟩

theorem staysOpen_cons_iff :
    StaysOpen (c :: cs) ↔ ¬ (c = '*' ∧ cs.head? = some '/') ∧ StaysOpen cs := by
  cases cs with
  | nil => simp [StaysOpen, Text.hasPair]
  | cons d cs => simp [StaysOpen, Text.hasPair]

/-- **A comment goes on to the first terminator.** -/
theorem StaysOpen.afterTerminator? (h : StaysOpen x) (y : List Char) :
    afterTerminator? (x ++ '*' :: '/' :: y) = some y := by
  induction x with
  | nil => rfl
  | cons c x ih =>
      obtain ⟨hpair, hx⟩ := staysOpen_cons_iff.mp h
      rw [List.cons_append, afterTerminator?_cons, ih hx]
      -- what stands behind the text starts with a star
      cases x with
      | nil => simp
      | cons d x => exact hpair

theorem exists_of_afterTerminator? {rest : List Char} (h : afterTerminator? cs = some rest) :
    ∃ x, StaysOpen x ∧ cs = x ++ '*' :: '/' :: rest := by
  induction cs using afterTerminator?.induct with
  | case1 cs =>
      rw [afterTerminator?] at h
      exact ⟨[], rfl, by rw [Option.some.inj h]; rfl⟩
  | case2 c cs hpair ih =>
      rw [afterTerminator?.eq_2 _ _ hpair] at h
      obtain ⟨x, hx, rfl⟩ := ih h
      refine ⟨c :: x, staysOpen_cons_iff.mpr ⟨?_, hx⟩, rfl⟩
      rintro ⟨rfl, hslash⟩
      obtain ⟨x, rfl⟩ := List.head?_eq_some_iff.mp hslash
      exact hpair _ rfl rfl
  | case3 => cases h

/-- **A comment has marks at both ends and no terminator between them.** -/
theorem isComment_iff {s : String} :
    IsComment s ↔ ∃ x, StaysOpen x ∧ s.toList = '/' :: '*' :: (x ++ ['*', '/']) := by
  unfold IsComment
  constructor
  · intro h
    unfold afterComment? at h
    split at h
    · rename_i rest hs
      obtain ⟨x, hx, rfl⟩ := exists_of_afterTerminator? h
      exact ⟨x, hx, hs⟩
    · cases h
  · rintro ⟨x, hx, hs⟩
    rw [hs]
    exact hx.afterTerminator? []

/-- Pieces that meet at another character than those of the terminator make none. -/
theorem staysOpen_append_cons (hstar : c ≠ '*') (hslash : c ≠ '/') :
    StaysOpen (x ++ c :: y) ↔ StaysOpen x ∧ StaysOpen y := by
  rw [StaysOpen, Text.hasPair_append_cons hstar hslash, Bool.or_eq_false_iff]

theorem StaysOpen.of_infix (h : StaysOpen y) (hx : x <:+: y) : StaysOpen x := by
  rw [StaysOpen, ← Bool.not_eq_true, Text.hasPair_iff] at h ⊢
  exact fun hpair => h (hpair.trans hx)

/-- Another character than a slash ends no comment. -/
theorem staysOpen_concat (h : c ≠ '/') : StaysOpen (x ++ [c]) ↔ StaysOpen x := by
  induction x with
  | nil => simp [StaysOpen, Text.hasPair]
  | cons d x ih =>
      rw [List.cons_append, staysOpen_cons_iff, staysOpen_cons_iff, ih]
      cases x with
      | nil => simp [h]
      | cons e x => rfl

/-- The terminator behind a comment is the only one: none stands in the comment, and none is made where
they meet. -/
theorem StaysOpen.eq_of_append_terminator (h : StaysOpen x) {front back : List Char}
    (heq : x ++ ['*', '/', '\n'] = front ++ '*' :: '/' :: back) : front = x ∧ back = ['\n'] := by
  rcases List.eq_nil_or_concat back with rfl | ⟨back, c, rfl⟩
  · have hlast := congrArg List.getLast? heq
    simp at hlast
  · have hcut : (x ++ ['*', '/']) ++ ['\n'] = (front ++ '*' :: '/' :: back) ++ [c] := by
      simpa using heq
    obtain ⟨hmark, hc⟩ := List.append_inj' hcut rfl
    obtain rfl : '\n' = c := by simpa using hc
    rcases List.eq_nil_or_concat back with rfl | ⟨back, d, rfl⟩
    · exact ⟨(List.append_inj_left' hmark rfl).symm, rfl⟩
    · exfalso
      have hcut : (x ++ ['*']) ++ ['/'] = (front ++ '*' :: '/' :: back) ++ [d] := by
        simpa using hmark
      have hopen : StaysOpen (x ++ ['*']) := (staysOpen_concat (by decide)).mpr h
      rw [List.append_inj_left' hcut rfl] at hopen
      have hpair : StaysOpen ['*', '/'] := hopen.of_infix ⟨front, back, by simp⟩
      exact absurd hpair (by decide)

end Open

/-! ### Texts without terminators -/

theorem Text.head?_replacePair {a b c : Char} {new cs : List Char} :
    (Text.replacePair a b (a :: new) (c :: cs)).head? = some c := by
  cases cs with
  | nil => rfl
  | cons d cs =>
      rw [replacePair]
      split
      · rename_i h
        rw [h.1]
        rfl
      · rfl

/-- A text whose terminators are broken up holds none. -/
theorem staysOpen_breakTerminators (text : String) : StaysOpen (breakTerminators text).toList := by
  rw [breakTerminators, String.toList_ofList]
  induction text.toList using Text.replacePair.induct (a := '*') (b := '/') with
  | case1 c d cs hpair ih =>
      rw [Text.replacePair, if_pos hpair]
      refine (staysOpen_append_cons (x := ['*']) (c := ' ') (by decide) (by decide)).mpr ⟨rfl, ?_⟩
      exact staysOpen_cons_iff.mpr ⟨by simp, ih⟩
  | case2 c d cs hpair ih =>
      rw [Text.replacePair, if_neg hpair, staysOpen_cons_iff, Text.head?_replacePair]
      exact ⟨fun hc => hpair ⟨hc.1, Option.some.inj hc.2⟩, ih⟩
  | case3 cs hshort =>
      rw [Text.replacePair.eq_2 _ _ _ _ hshort, StaysOpen, Text.hasPair.eq_2 _ _ _ hshort]

/-- Dropping carriage returns makes no terminator: a newline is left between what stood around it. -/
theorem StaysOpen.dropReturns {x : List Char} (h : StaysOpen x) :
    StaysOpen (Text.replacePair '\r' '\n' ['\n'] x) := by
  induction x using Text.replacePair.induct (a := '\r') (b := '\n') with
  | case1 c d cs hpair ih =>
      obtain ⟨rfl, rfl⟩ := hpair
      have hcs : StaysOpen cs := h.of_infix ⟨['\r', '\n'], [], by simp⟩
      rw [Text.replacePair, if_pos ⟨rfl, rfl⟩]
      exact staysOpen_cons_iff.mpr ⟨by simp, ih hcs⟩
  | case2 c d cs hpair ih =>
      obtain ⟨hstart, hcs⟩ := staysOpen_cons_iff.mp h
      rw [Text.replacePair, if_neg hpair, staysOpen_cons_iff]
      refine ⟨fun hc => hstart ⟨hc.1, ?_⟩, ih hcs⟩
      -- a slash that comes first has been there
      cases cs with
      | nil => exact hc.2
      | cons e cs =>
          rw [Text.replacePair] at hc
          split at hc
          · simp at hc
          · exact hc.2
  | case3 cs hshort => rwa [Text.replacePair.eq_2 _ _ _ _ hshort]

/-- The lines of a text without a terminator hold none. -/
theorem StaysOpen.of_mem_lines {text l : String} (h : StaysOpen text.toList)
    (hl : l ∈ Text.lines text) : StaysOpen l.toList := by
  obtain ⟨cs, hcs, rfl⟩ := List.mem_map.mp hl
  obtain ⟨w, hw, hstart⟩ := Text.isPrefix_of_mem_lineChars hcs
  rw [String.toList_ofList]
  exact h.of_infix (hstart.isInfix.trans (Text.infix_of_mem_pieces hw))

/-! ## Printed comments -/

/-- The characters of lines, each line ended. -/
def endedLines (ls : List String) : List Char := ls.flatMap fun l => l.toList ++ ['\n']

theorem endedLines_cons (l : String) (ls : List String) :
    endedLines (l :: ls) = l.toList ++ '\n' :: endedLines ls := by
  simp [endedLines]

theorem endedLines_append (ls ls' : List String) :
    endedLines (ls ++ ls') = endedLines ls ++ endedLines ls' := List.flatMap_append

theorem toList_printAt (k : Nat) (f : Fragment) :
    (Fragment.printAt k f).toList = endedLines (fragmentLines k f) := by
  rw [Fragment.printAt, String.toList_join, List.flatMap_map]
  simp only [String.toList_append]
  rfl

theorem toList_lineAt {l : String} (k : Nat) (h : l ≠ "") :
    (lineAt k l).toList = List.replicate k ' ' ++ l.toList := by
  rw [lineAt, if_neg (by simpa using h), String.toList_append, Text.spaces, String.toList_ofList]

theorem lineAt_zero (l : String) : lineAt 0 l = l := by
  rw [lineAt]
  split
  · rename_i h
    exact (by simpa using h : l = "").symm
  · exact String.empty_append

theorem staysOpen_indented {k : Nat} {x : List Char} :
    StaysOpen (List.replicate k ' ' ++ x) ↔ StaysOpen x := by
  induction k with
  | zero => exact Iff.rfl
  | succ k ih => rw [List.replicate_succ, List.cons_append, staysOpen_cons_iff, ih]; simp

/-- Lines without terminators have none where they meet. -/
theorem staysOpen_endedLines {ls : List String} {y : List Char}
    (h : ∀ l ∈ ls, StaysOpen l.toList) (hy : StaysOpen y) : StaysOpen (endedLines ls ++ y) := by
  induction ls with
  | nil => exact hy
  | cons l ls ih =>
      obtain ⟨hl, hls⟩ := List.forall_mem_cons.mp h
      rw [endedLines, List.flatMap_cons, List.append_assoc, List.append_assoc]
      exact (staysOpen_append_cons (by decide) (by decide)).mpr ⟨hl, ih hls⟩

/-- A further line of a comment has a star in front. -/
theorem staysOpen_starred {k : Nat} {l : String} (h : StaysOpen l.toList) :
    StaysOpen (lineAt k (if l.isEmpty then " *" else " * " ++ l)).toList := by
  split
  · rw [toList_lineAt k (by decide), staysOpen_indented]
    decide
  · rw [toList_lineAt k (by simp), staysOpen_indented, String.toList_append]
    exact (staysOpen_append_cons (x := [' ', '*']) (c := ' ') (by decide) (by decide)).mpr
      ⟨by decide, h⟩

/-- **Lines between comment marks are one comment,** however deep they stand. -/
theorem endedLines_commentAround (k : Nat) {ls : List String} (h : ∀ l ∈ ls, StaysOpen l.toList) :
    ∃ x, StaysOpen x ∧ endedLines ((commentAround ls).map (lineAt k)) =
      List.replicate k ' ' ++ '/' :: '*' :: (x ++ ['*', '/', '\n']) := by
  match ls with
  | [] =>
      refine ⟨[' ', ' '], by decide, ?_⟩
      simp [commentAround, endedLines, toList_lineAt]
  | [l] =>
      have hl := h l List.mem_cons_self
      have hopen : StaysOpen (l.toList ++ [' ']) :=
        (staysOpen_append_cons (by decide) (by decide)).mpr ⟨hl, rfl⟩
      refine ⟨' ' :: (l.toList ++ [' ']), staysOpen_cons_iff.mpr ⟨by simp, hopen⟩, ?_⟩
      simp [commentAround, endedLines, toList_lineAt]
  | l :: m :: ms =>
      obtain ⟨hl, hms⟩ := List.forall_mem_cons.mp h
      let starred := (m :: ms).map fun l => if l.isEmpty then " *" else " * " ++ l
      have hstarred : ∀ l ∈ starred.map (lineAt k), StaysOpen l.toList := by
        rw [List.map_map, List.forall_mem_map]
        exact fun l hl => staysOpen_starred (hms l hl)
      have hend : StaysOpen (List.replicate k ' ' ++ [' ']) := staysOpen_indented.mpr (by decide)
      let rest := endedLines (starred.map (lineAt k)) ++ (List.replicate k ' ' ++ [' '])
      have hopen : StaysOpen (l.toList ++ '\n' :: rest) :=
        (staysOpen_append_cons (by decide) (by decide)).mpr ⟨hl, staysOpen_endedLines hstarred hend⟩
      refine ⟨' ' :: (l.toList ++ '\n' :: rest), staysOpen_cons_iff.mpr ⟨by simp, hopen⟩, ?_⟩
      have hlines : commentAround (l :: m :: ms) = ("/* " ++ l) :: (starred ++ [" */"]) := rfl
      have hlast : endedLines [lineAt k " */"] = List.replicate k ' ' ++ [' ', '*', '/', '\n'] := by
        simp [endedLines, toList_lineAt]
      rw [hlines, List.map_cons, List.map_append, List.map_singleton, endedLines_cons,
        endedLines_append, hlast, toList_lineAt k (by simp), String.toList_append]
      simp [rest]

/-- **What is printed for a comment is one comment,** at any indentation. -/
theorem printAt_comment (k : Nat) (text : String) :
    ∃ x, StaysOpen x ∧ (Fragment.printAt k [.comment text]).toList =
      List.replicate k ' ' ++ '/' :: '*' :: (x ++ ['*', '/', '\n']) := by
  have hlines : fragmentLines k [.comment text] = (commentLines text).map (lineAt k) :=
    List.append_nil _
  rw [toList_printAt, hlines, commentLines]
  exact endedLines_commentAround k fun l hl => (staysOpen_breakTerminators text).of_mem_lines hl

/-- **A comment ends with its last line.**  What is printed for a comment starts, behind the
indentation, with the opening mark; behind this mark there is a terminator in one place only, and
nothing but a newline follows it. -/
theorem comment_terminated_once (k : Nat) (text : String) :
    ∃ body, (Fragment.printAt k [.comment text]).toList =
        List.replicate k ' ' ++ '/' :: '*' :: (body ++ ['*', '/', '\n']) ∧
      ∀ front back, body ++ ['*', '/', '\n'] = front ++ '*' :: '/' :: back →
        front = body ∧ back = ['\n'] := by
  obtain ⟨body, hbody, hprint⟩ := printAt_comment k text
  exact ⟨body, hprint, fun _ _ => hbody.eq_of_append_terminator⟩

/-! ## Texts that are comments already -/

/-- A text that is taken for a comment holds no terminator between its marks. -/
theorem exists_of_isOneComment {cs : List Char} (h : isOneComment cs = true) :
    ∃ x, StaysOpen x ∧ cs = '/' :: '*' :: (x ++ ['*', '/']) := by
  unfold isOneComment at h
  cases hbody : commentBody? cs with
  | none =>
      rw [hbody] at h
      cases h
  | some inner =>
      rw [hbody] at h
      refine ⟨inner, by simpa using h, ?_⟩
      unfold commentBody? at hbody
      split at hbody
      · rename_i rest
        split at hbody
        · rename_i inner' hreverse
          cases hbody
          rw [← List.reverse_reverse rest, hreverse]
          simp
        · cases hbody
      · cases hbody

/-- A comment that is printed as it is stays one comment. -/
theorem print_raw {text : String} (h : isOneComment text.toList = true) :
    ∃ x, StaysOpen x ∧
      (Fragment.print [.raw text]).toList = '/' :: '*' :: (x ++ ['*', '/', '\n']) := by
  obtain ⟨x, hx, htext⟩ := exists_of_isOneComment h
  have hlines : fragmentLines 0 [.raw text] = Text.lines text := by
    have hzero : lineAt 0 = id := funext lineAt_zero
    rw [fragmentLines, Item.lines, hzero, List.map_id]
    exact List.append_nil _
  have hlast : text.toList.getLast? ≠ some '\n' := by
    have hshape : text.toList = ('/' :: '*' :: (x ++ ['*'])) ++ ['/'] := by simp [htext]
    rw [hshape, List.getLast?_concat]
    decide
  have hended : endedLines (Text.lines text) =
      Text.replacePair '\r' '\n' ['\n'] text.toList ++ ['\n'] := by
    rw [← Text.flatMap_lineChars (by simp [htext]) hlast, endedLines, Text.lines, List.flatMap_map]
    simp
  refine ⟨_, hx.dropReturns, ?_⟩
  rw [Fragment.print, toList_printAt, hlines, hended, htext, Text.replacePair_cons_of_ne (by decide),
    Text.replacePair_cons_of_ne (by decide), Text.replacePair_append_cons (by decide)]
  simp [Text.replacePair]

/-- **Any text is shown as one comment.** -/
theorem print_commentItem (text : String) :
    ∃ c, IsComment c ∧ Fragment.print [commentItem text] = c ++ "\n" := by
  have hprint : ∃ x, StaysOpen x ∧
      (Fragment.print [commentItem text]).toList = '/' :: '*' :: (x ++ ['*', '/', '\n']) := by
    unfold commentItem
    split
    · exact print_raw ‹_›
    · exact printAt_comment 0 text
  obtain ⟨x, hx, hprint⟩ := hprint
  refine ⟨String.ofList ('/' :: '*' :: (x ++ ['*', '/'])), ?_, ?_⟩
  · exact isComment_iff.mpr ⟨x, hx, String.toList_ofList⟩
  · rw [← String.toList_inj, hprint, String.toList_append, String.toList_ofList]
    simp

end ClassTables
