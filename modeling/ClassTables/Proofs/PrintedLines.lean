import ClassTables.Proofs.Comments
/-!
# The lines of printed text

The strings of an item are of two kinds.  A *spelling* goes into a line of C as it is; the *texts* of
comments and of lines that are printed as they are become lines of their own.  A character other than
a blank gets into the lines of a construct only through these strings (`Item.lacks_lines`), so a
fragment whose spellings hold no newline is printed line by line: cutting its text at the newlines
gives the lines back (`cutLines_printAt`).
-/

namespace ClassTables

/-! ## Cutting at newlines -/

namespace Text

/-- The stretches of a text between its newlines. -/
def cutLines (s : String) : List String := (pieces (· == '\n') s.toList).map String.ofList

/-- The text of lines, each ended by a newline. -/
def ended (ls : List String) : String := String.join (ls.map (· ++ "\n"))

theorem pieces_of_not {p : Char → Bool} {cs : List Char} (h : ∀ c ∈ cs, p c = false) :
    pieces p cs = [cs] := by
  induction cs with
  | nil => rfl
  | cons c cs ih =>
      obtain ⟨hc, hcs⟩ := List.forall_mem_cons.mp h
      exact pieces_cons_of_not hc (ih hcs)

/-- A line in front of a text is cut off. -/
theorem cutLines_cons {l : String} (h : '\n' ∉ l.toList) (s : String) :
    cutLines (l ++ "\n" ++ s) = l :: cutLines s := by
  have hl : pieces (· == '\n') l.toList = [l.toList] :=
    pieces_of_not fun c hc => beq_false_of_ne fun he => h (he ▸ hc)
  have htext : (l ++ "\n" ++ s).toList = l.toList ++ '\n' :: s.toList := by simp
  rw [cutLines, htext, pieces_append_cons rfl, hl, List.singleton_append, List.map_cons,
    String.ofList_toList]
  rfl

theorem cutLines_append_newline (s : String) : cutLines (s ++ "\n") = cutLines s ++ [""] := by
  have htext : (s ++ "\n").toList = s.toList ++ '\n' :: [] := by simp
  rw [cutLines, htext, pieces_append_cons rfl, List.map_append]
  rfl

theorem ended_cons (l : String) (ls : List String) : ended (l :: ls) = l ++ "\n" ++ ended ls := by
  rw [ended, List.map_cons, String.join_cons]
  rfl

theorem ended_append (ls ls' : List String) : ended (ls ++ ls') = ended ls ++ ended ls' := by
  rw [ended, List.map_append, String.join_append]
  rfl

end Text

/-! ## Strings without a character -/

/-- None of the strings holds the character. -/
def Lacks (c : Char) (ss : List String) : Prop := ∀ s ∈ ss, c ∉ s.toList

instance (c : Char) (ss : List String) : Decidable (Lacks c ss) :=
  inferInstanceAs (Decidable (∀ s ∈ ss, c ∉ s.toList))

section Lacks

variable {c : Char} {s : String} {ss ts : List String}

@[simp] theorem lacks_nil : Lacks c [] := fun _ hs => nomatch hs

@[simp] theorem lacks_cons : Lacks c (s :: ss) ↔ c ∉ s.toList ∧ Lacks c ss := List.forall_mem_cons

@[simp] theorem lacks_append : Lacks c (ss ++ ts) ↔ Lacks c ss ∧ Lacks c ts :=
  List.forall_mem_append

@[simp] theorem lacks_toList {o : Option String} : Lacks c o.toList ↔ ∀ s ∈ o, c ∉ s.toList := by
  simp [Lacks]

/-- Indentation adds blanks only. -/
theorem mem_lineAt_iff (hc : c ≠ ' ') (k : Nat) : c ∈ (lineAt k s).toList ↔ c ∈ s.toList := by
  by_cases hs : s = ""
  · subst hs
    rfl
  · rw [toList_lineAt k hs, List.mem_append, List.mem_replicate]
    exact or_iff_right fun h => hc h.2

theorem lacks_map_lineAt (hc : c ≠ ' ') (k : Nat) : Lacks c (ss.map (lineAt k)) ↔ Lacks c ss := by
  simp only [Lacks, List.forall_mem_map, mem_lineAt_iff hc]

theorem lacks_lineAt (hc : c ≠ ' ') (k : Nat) : Lacks c [lineAt k s] ↔ c ∉ s.toList := by
  rw [lacks_cons, mem_lineAt_iff hc, and_iff_left lacks_nil]

end Lacks

namespace Text

/-- Cutting and ending lines undo each other. -/
theorem cutLines_ended {ls : List String} (h : Lacks '\n' ls) : cutLines (ended ls) = ls ++ [""] := by
  induction ls with
  | nil => rfl
  | cons l ls ih =>
      obtain ⟨hl, hls⟩ := lacks_cons.mp h
      rw [ended_cons, cutLines_cons hl, ih hls, List.cons_append]

/-- The lines of a text hold no newline. -/
theorem lacks_newline_lines (s : String) : Lacks '\n' (lines s) := by
  intro l hl hmem
  obtain ⟨cs, hcs, rfl⟩ := List.mem_map.mp hl
  obtain ⟨w, hw, hstart⟩ := isPrefix_of_mem_lineChars hcs
  rw [String.toList_ofList] at hmem
  exact absurd (not_of_mem_pieces hw (hstart.subset hmem)) (by simp)

/-- What a text lacks, its lines lack. -/
theorem lacks_lines {c : Char} {s : String} (h : c ∉ s.toList) : Lacks c (lines s) := by
  intro l hl hmem
  obtain ⟨cs, hcs, rfl⟩ := List.mem_map.mp hl
  obtain ⟨w, hw, hstart⟩ := isPrefix_of_mem_lineChars hcs
  rw [String.toList_ofList] at hmem
  exact h ((infix_of_mem_pieces hw).subset (hstart.subset hmem))

theorem mem_replacePair {a b c : Char} {new : List Char} : ∀ {cs : List Char},
    c ∈ replacePair a b new cs → c ∈ new ∨ c ∈ cs
  | [], h => Or.inr h
  | [_], h => Or.inr h
  | d :: e :: cs, h => by
      rw [replacePair] at h
      split at h
      · rcases List.mem_append.mp h with h | h
        · exact Or.inl h
        · exact (mem_replacePair h).imp_right fun h => List.mem_cons_of_mem d (List.mem_cons_of_mem e h)
      · rcases List.mem_cons.mp h with rfl | h
        · exact Or.inr List.mem_cons_self
        · exact (mem_replacePair h).imp_right (List.mem_cons_of_mem d)

end Text

/-! ## The strings of items -/

def FnHead.spellings (f : FnHead) : List String := [f.returns, f.name, f.params, f.specifiers]

def InitField.spellings (f : InitField) : List String := f.value :: f.comment.toList

mutual

/-- The strings of a statement. -/
def Stmt.spellings : Stmt → List String
  | .line text => [text]
  | .cond test body => test :: stmtSpellings body
  | .ret value => value.toList

def stmtSpellings : List Stmt → List String
  | [] => []
  | s :: ss => s.spellings ++ stmtSpellings ss

end

mutual

/-- The strings that go into lines of C. -/
def Item.spellings : Item → List String
  | .comment _ | .blank | .raw _ => []
  | .inclusion (.quoted path) | .inclusion (.angled path) => [path]
  | .define d => d.name :: d.value.toList
  | .cond h body => h.condition :: spellingsOf body
  | .condElse h body otherwise => h.condition :: (spellingsOf body ++ spellingsOf otherwise)
  | .typedefStruct tag name => [tag, name]
  | .fnPointer p => [p.returns, p.name, p.params]
  | .structDef s => s.name :: s.fields
  | .fnDecl f => f.spellings
  | .fnDef f body => f.spellings ++ stmtSpellings body
  | .var v => v.type :: v.name :: v.specifiers :: v.init.toList
  | .array a => a.type :: a.name :: a.specifiers :: a.rows.flatten.flatMap InitField.spellings

/-- The strings that go into lines of C, of all items. -/
def spellingsOf : List Item → List String
  | [] => []
  | i :: is => i.spellings ++ spellingsOf is

end

mutual

/-- The strings that become lines of their own. -/
def Item.texts : Item → List String
  | .comment text | .raw text => [text]
  | .cond _ body => textsOf body
  | .condElse _ body otherwise => textsOf body ++ textsOf otherwise
  | _ => []

/-- The strings that become lines of their own, of all items. -/
def textsOf : List Item → List String
  | [] => []
  | i :: is => i.texts ++ textsOf is

end

/-- No string but those of comments and verbatim lines holds a newline. -/
abbrev Fragment.Unbroken (f : Fragment) : Prop := Lacks '\n' (spellingsOf f)

/-! ## The characters of lines -/

/-- A condition with a lone return stands on one line, any other one around its body. -/
theorem Stmt.lines_cond (test : String) (body : List Stmt) :
    (∃ v, body = [.ret v] ∧ ∀ k, (Stmt.cond test body).lines k =
      [lineAt k ("if (" ++ test ++ ") \x7b " ++ returnText v ++ " \x7d")]) ∨
    ∀ k, (Stmt.cond test body).lines k = lineAt k ("if (" ++ test ++ ") \x7b") ::
      (stmtLines (k + bodyIndent) body ++ [lineAt k "\x7d"]) := by
  by_cases h : ∃ v, body = [.ret v]
  · obtain ⟨v, rfl⟩ := h
    exact Or.inl ⟨v, rfl, fun _ => rfl⟩
  · exact Or.inr fun k => Stmt.lines.eq_4 k test body fun v hv => h ⟨v, hv⟩

section Characters

variable {c : Char}

theorem ne_blank_of (hc : c = '\n' ∨ c = '#') : c ≠ ' ' := by
  rcases hc with rfl | rfl <;> decide

theorem not_mem_returnText (hc : c = '\n' ∨ c = '#') {v : Option String} (h : Lacks c v.toList) :
    c ∉ (returnText v).toList := by
  cases v with
  | none => rcases hc with rfl | rfl <;> decide
  | some s =>
      have hs : c ∉ s.toList := by simpa using h
      rcases hc with rfl | rfl <;> simpa [returnText] using hs

mutual

theorem Stmt.lacks_lines (hc : c = '\n' ∨ c = '#') :
    ∀ (s : Stmt) (k : Nat), Lacks c s.spellings → Lacks c (s.lines k)
  | .line _, k, h => (lacks_lineAt (ne_blank_of hc) k).mpr (lacks_cons.mp h).1
  | .ret _, k, h => (lacks_lineAt (ne_blank_of hc) k).mpr (not_mem_returnText hc h)
  | .cond test body, k, h => by
      obtain ⟨htest, hbody⟩ := lacks_cons.mp h
      rcases Stmt.lines_cond test body with ⟨v, rfl, hlines⟩ | hlines
      · have hv := not_mem_returnText hc (v := v) (by simpa [stmtSpellings, Stmt.spellings] using hbody)
        rw [hlines, lacks_cons, mem_lineAt_iff (ne_blank_of hc)]
        rcases hc with rfl | rfl <;> simp [htest, hv]
      · have hinner := lacks_stmtLines hc body (k + bodyIndent) hbody
        rw [hlines, lacks_cons, lacks_append, lacks_cons, mem_lineAt_iff (ne_blank_of hc),
          mem_lineAt_iff (ne_blank_of hc)]
        rcases hc with rfl | rfl <;> simp [htest, hinner]

theorem lacks_stmtLines (hc : c = '\n' ∨ c = '#') :
    ∀ (ss : List Stmt) (k : Nat), Lacks c (stmtSpellings ss) → Lacks c (stmtLines k ss)
  | [], _, _ => lacks_nil
  | s :: ss, k, h => by
      obtain ⟨hs, hss⟩ := lacks_append.mp h
      exact lacks_append.mpr ⟨Stmt.lacks_lines hc s k hs, lacks_stmtLines hc ss k hss⟩

end

theorem lacks_fieldLines (hc : c = '\n' ∨ c = '#') (k : Nat) : ∀ row : Initializer,
    Lacks c (row.flatMap InitField.spellings) → Lacks c (fieldLines k row)
  | [], _ => lacks_nil
  | f :: fs, h => by
      rw [List.flatMap_cons, lacks_append] at h
      obtain ⟨hvalue, hcomment⟩ := lacks_cons.mp h.1
      have hline : c ∉ (f.line fs.isEmpty).toList := by
        unfold InitField.line
        cases hf : f.comment with
        | none => rcases hc with rfl | rfl <;> cases fs.isEmpty <;> simp [hvalue]
        | some s =>
            have hs : c ∉ s.toList := by simpa [hf] using hcomment
            rcases hc with rfl | rfl <;> cases fs.isEmpty <;> simp [hvalue, hs]
      rw [fieldLines, lacks_cons, mem_lineAt_iff (ne_blank_of hc)]
      exact ⟨hline, lacks_fieldLines hc k fs h.2⟩

theorem lacks_rowLines (hc : c = '\n' ∨ c = '#') (k : Nat) : ∀ rows : List Initializer,
    Lacks c (rows.flatten.flatMap InitField.spellings) → Lacks c (rowLines k rows)
  | [], _ => lacks_nil
  | row :: rows, h => by
      rw [List.flatten_cons, List.flatMap_append, lacks_append] at h
      rw [rowLines, lacks_cons, lacks_append, lacks_cons, mem_lineAt_iff (ne_blank_of hc),
        mem_lineAt_iff (ne_blank_of hc)]
      refine ⟨?_, lacks_fieldLines hc _ row h.1, ?_, lacks_rowLines hc k rows h.2⟩
      · rcases hc with rfl | rfl <;> decide
      · rcases hc with rfl | rfl <;> cases rows.isEmpty <;> decide

theorem lacks_commentAround (hc : c = '\n' ∨ c = '#') : ∀ {ls : List String}, Lacks c ls →
    Lacks c (commentAround ls)
  | [], _ => by rcases hc with rfl | rfl <;> decide
  | [l], h => by
      have hl : c ∉ l.toList := (lacks_cons.mp h).1
      rcases hc with rfl | rfl <;> simp [commentAround, hl]
  | l :: m :: ms, h => by
      obtain ⟨hl, hms⟩ := lacks_cons.mp h
      have hstarred : Lacks c ((m :: ms).map fun l => if l.isEmpty then " *" else " * " ++ l) := by
        unfold Lacks
        rw [List.forall_mem_map]
        intro t ht
        have htext := hms t ht
        split
        · rcases hc with rfl | rfl <;> decide
        · rcases hc with rfl | rfl <;> simp [htext]
      have hopen : c ∉ ("/* " ++ l).toList := by rcases hc with rfl | rfl <;> simp [hl]
      have hclose : Lacks c [" */"] := by rcases hc with rfl | rfl <;> decide
      exact lacks_cons.mpr ⟨hopen, lacks_append.mpr ⟨hstarred, hclose⟩⟩

theorem not_mem_withSpecifiers (hc : c = '\n' ∨ c = '#') {specifiers text : String}
    (hs : c ∉ specifiers.toList) (ht : c ∉ text.toList) :
    c ∉ (withSpecifiers specifiers text).toList := by
  unfold withSpecifiers
  split
  · exact ht
  · rcases hc with rfl | rfl <;> simp [hs, ht]

/-- Items that print a line of the preprocessor. -/
def Item.isDirective : Item → Bool
  | .inclusion _ | .define _ | .cond _ _ | .condElse _ _ _ => true
  | _ => false

/-- **What its strings lack, an item lacks,** unless it is for the preprocessor.  A newline does not
come from the texts either, which are cut into lines. -/
theorem Item.lacks_lines (hc : c = '\n' ∨ c = '#') {i : Item} (hi : i.isDirective = false) (k : Nat)
    (hs : Lacks c i.spellings) (ht : c = '#' → Lacks c i.texts) : Lacks c (i.lines k) := by
  have hblank := ne_blank_of hc
  cases i with
  | inclusion | define | cond | condElse => cases hi
  | comment text =>
      have hlines : Lacks c (Text.lines (breakTerminators text)) := by
        rcases hc with rfl | rfl
        · exact Text.lacks_newline_lines _
        · refine Text.lacks_lines fun hmem => ?_
          rw [breakTerminators, String.toList_ofList] at hmem
          rcases Text.mem_replacePair hmem with h | h
          · exact absurd h (by decide)
          · exact ht rfl text List.mem_cons_self h
      exact (lacks_map_lineAt hblank k).mpr (lacks_commentAround hc hlines)
  | blank => rcases hc with rfl | rfl <;> simp [Item.lines]
  | raw text =>
      refine (lacks_map_lineAt hblank k).mpr ?_
      rcases hc with rfl | rfl
      · exact Text.lacks_newline_lines _
      · exact Text.lacks_lines (ht rfl text List.mem_cons_self)
  | typedefStruct tag name =>
      simp only [Item.spellings, lacks_cons, lacks_nil, and_true] at hs
      rw [Item.lines, lacks_cons, mem_lineAt_iff hblank]
      rcases hc with rfl | rfl <;> simp [hs]
  | fnPointer p =>
      simp only [Item.spellings, lacks_cons, lacks_nil, and_true] at hs
      rw [Item.lines, lacks_cons, lacks_cons, mem_lineAt_iff hblank, mem_lineAt_iff hblank]
      rcases hc with rfl | rfl <;> simp [hs]
  | structDef s =>
      obtain ⟨hname, hfields⟩ := lacks_cons.mp hs
      rw [Item.lines, lacks_cons, lacks_append, lacks_cons, mem_lineAt_iff hblank,
        lacks_map_lineAt hblank, mem_lineAt_iff hblank]
      rcases hc with rfl | rfl <;> cases s.named <;> simp [hname, hfields]
  | fnDecl f =>
      simp only [Item.spellings, FnHead.spellings, lacks_cons, lacks_nil, and_true] at hs
      have hreturn := not_mem_withSpecifiers hc hs.2.2.2 hs.1
      rw [Item.lines, lacks_cons, lacks_cons, mem_lineAt_iff hblank, mem_lineAt_iff hblank]
      rcases hc with rfl | rfl <;> simp [FnHead.returnLine, FnHead.nameLine, hreturn, hs]
  | fnDef f body =>
      simp only [Item.spellings, FnHead.spellings, lacks_append, lacks_cons, lacks_nil, and_true] at hs
      obtain ⟨hhead, hbody⟩ := hs
      have hreturn := not_mem_withSpecifiers hc hhead.2.2.2 hhead.1
      have hinner := lacks_stmtLines hc body (k + bodyIndent) hbody
      rw [Item.lines, lacks_cons, lacks_cons, lacks_append, lacks_cons, mem_lineAt_iff hblank,
        mem_lineAt_iff hblank, mem_lineAt_iff hblank]
      rcases hc with rfl | rfl <;>
        simp [FnHead.returnLine, FnHead.nameLine, hreturn, hhead, hinner]
  | var v =>
      simp only [Item.spellings, lacks_cons] at hs
      obtain ⟨htype, hname, hspecifiers, hinit⟩ := hs
      have htext : c ∉ v.line.toList := by
        refine not_mem_withSpecifiers hc hspecifiers ?_
        cases hv : v.init with
        | none => rcases hc with rfl | rfl <;> simp [htype, hname]
        | some e =>
            have he : c ∉ e.toList := by simpa [hv] using hinit
            rcases hc with rfl | rfl <;> simp [htype, hname, he]
      exact (lacks_lineAt hblank k).mpr htext
  | array a =>
      simp only [Item.spellings, lacks_cons] at hs
      obtain ⟨htype, hname, hspecifiers, hrows⟩ := hs
      have hhead : c ∉ (a.type ++ " " ++ a.name ++ "[] = \x7b").toList := by
        rcases hc with rfl | rfl <;> simp [htype, hname]
      have hopen := not_mem_withSpecifiers hc hspecifiers hhead
      have hinner := lacks_rowLines hc (k + bodyIndent) a.rows hrows
      rw [Item.lines, lacks_cons, lacks_append, lacks_cons, mem_lineAt_iff hblank,
        mem_lineAt_iff hblank]
      refine ⟨hopen, hinner, ?_, lacks_nil⟩
      rcases hc with rfl | rfl <;> decide

end Characters

/-! ## Printing line by line -/

theorem not_mem_openLine {h : CondHead} (hc : '\n' ∉ h.condition.toList) :
    '\n' ∉ h.openLine.toList := by
  unfold CondHead.openLine CondHead.directive
  cases h.kind <;> simp [hc]

theorem not_mem_closeLine {h : CondHead} (hc : '\n' ∉ h.condition.toList) :
    '\n' ∉ h.closeLine.toList := by
  unfold CondHead.closeLine
  split
  · simp [hc]
  · decide

mutual

/-- An item whose spellings stand on one line each is printed line by line. -/
theorem Item.lacks_newline_lines : ∀ (i : Item) (k : Nat), Lacks '\n' i.spellings →
    Lacks '\n' (i.lines k)
  | .cond h body, k, hs => by
      obtain ⟨hc, hbody⟩ := lacks_cons.mp hs
      have hinner := lacks_newline_fragmentLines body (k + h.depth) hbody
      rw [Item.lines, lacks_cons, lacks_append, lacks_cons, mem_lineAt_iff (by decide),
        mem_lineAt_iff (by decide)]
      exact ⟨not_mem_openLine hc, hinner, not_mem_closeLine hc, lacks_nil⟩
  | .condElse h body otherwise, k, hs => by
      obtain ⟨hc, hbodies⟩ := lacks_cons.mp hs
      obtain ⟨hbody, hother⟩ := lacks_append.mp hbodies
      have hinner := lacks_newline_fragmentLines body (k + h.depth) hbody
      have hinner' := lacks_newline_fragmentLines otherwise (k + h.depth) hother
      rw [Item.lines, lacks_cons, lacks_append, lacks_cons, lacks_append, lacks_cons,
        mem_lineAt_iff (by decide), mem_lineAt_iff (by decide), mem_lineAt_iff (by decide)]
      exact ⟨not_mem_openLine hc, hinner, by decide, hinner', not_mem_closeLine hc, lacks_nil⟩
  | .inclusion i, k, hs => by
      have hline : '\n' ∉ i.line.toList := by
        cases i <;> simpa [Item.spellings, Inclusion.line] using hs
      exact (lacks_lineAt (by decide) k).mpr hline
  | .define d, k, hs => by
      obtain ⟨hname, hvalue⟩ := lacks_cons.mp hs
      have hline : '\n' ∉ d.line.toList := by
        unfold Define.line
        cases hd : d.value with
        | none => simp [hname]
        | some v =>
            have hv : '\n' ∉ v.toList := by simpa [hd] using hvalue
            simp [hname, hv]
      exact (lacks_lineAt (by decide) k).mpr hline
  | .comment _, k, hs | .blank, k, hs | .raw _, k, hs | .typedefStruct _ _, k, hs
  | .fnPointer _, k, hs | .structDef _, k, hs | .fnDecl _, k, hs | .fnDef _ _, k, hs | .var _, k, hs
  | .array _, k, hs => Item.lacks_lines (Or.inl rfl) rfl k hs fun he => absurd he (by decide)

theorem lacks_newline_fragmentLines : ∀ (f : List Item) (k : Nat), Lacks '\n' (spellingsOf f) →
    Lacks '\n' (fragmentLines k f)
  | [], _, _ => lacks_nil
  | i :: is, k, h => by
      obtain ⟨hi, his⟩ := lacks_append.mp h
      exact lacks_append.mpr ⟨i.lacks_newline_lines k hi, lacks_newline_fragmentLines is k his⟩

end

namespace Fragment

/-- **The lines of a printed fragment are its lines,** and nothing stands behind the last newline. -/
theorem cutLines_printAt {f : Fragment} (h : f.Unbroken) (k : Nat) :
    Text.cutLines (f.printAt k) = fragmentLines k f ++ [""] :=
  Text.cutLines_ended (lacks_newline_fragmentLines f k h)

end Fragment

end ClassTables
