import ClassTables.Output.Basic
import ClassTables.Proofs.DirectCalls
import ClassTables.Proofs.FramedTexts
import ClassTables.Proofs.PrintedLines
/-!
# Conditionals in printed text

A compiler does not see the items of a fragment, only the lines that start with `#`.  It reads the
conditionals off these lines with a stack: a line that opens a block is pushed, `#else` turns the
topmost block to its other branch, once, and `#endif` closes it (`Reading.step?`).  A sequence is
*well nested* where that leaves no block open and finds no line out of place (`readBlocks?`); it is
then the one sequence that the blocks spell (`readBlocks?_eq_some_iff`).

Main statement: `conditionals_balanced`.  Where the strings of a fragment hold no `#`, the lines of
its text are read as the blocks that its conditional items are, nested as these are.  So the guard of
a header closes with the last line that starts with `#`.
-/

namespace ClassTables

open Text

/-! ## Directives -/

/-- A line that opens, turns or closes a conditional. -/
inductive Directive where
  | opening (kind : CondKind) (condition : String)
  | otherwise
  | closing
deriving DecidableEq, Repr

/-- A character of the word behind a `#`. -/
def isWordChar (c : Char) : Bool := c.isAlphanum || c == '_'

/-- A line for the preprocessor: blanks apart, it starts with `#`. -/
def isDirectiveLine (line : String) : Bool := (line.toList.dropWhile isBlank).head? == some '#'

namespace Directive

/-- What a word behind a `#` does to conditionals. -/
def ofWord? (word condition : String) : Option Directive :=
  match word with
  | "if" => some (.opening .ifHolds condition)
  | "ifdef" => some (.opening .ifDefined condition)
  | "ifndef" => some (.opening .ifUndefined condition)
  | "else" => some .otherwise
  | "endif" => some .closing
  | _ => none

/-- Reads what follows a `#`: a word, and behind a space a condition. -/
def ofChars? (cs : List Char) : Option Directive :=
  let rest := cs.dropWhile isBlank
  ofWord? (String.ofList (rest.takeWhile isWordChar))
    (String.ofList ((rest.dropWhile isWordChar).drop 1))

def ofLine? (line : String) : Option Directive :=
  match line.toList.dropWhile isBlank with
  | '#' :: rest => ofChars? rest
  | _ => none

end Directive

/-- The lines for the preprocessor. -/
def directiveLines (text : String) : List String := (cutLines text).filter isDirectiveLine

/-- The lines of a text that open, turn and close conditionals. -/
def directivesOf (text : String) : List Directive := (directiveLines text).filterMap Directive.ofLine?

example : directivesOf "#ifdef A\n  # define B\n  x = \"#\";\n\t#endif\n" =
    [.opening .ifDefined "A", .closing] := by decide

/-! ## Blocks -/

/-- A conditional and the conditionals in its branches. -/
inductive Block where
  | cond (kind : CondKind) (condition : String) (body : List Block)
  | condElse (kind : CondKind) (condition : String) (body otherwise : List Block)

mutual

/-- The lines of a block, top to bottom. -/
def Block.directives : Block → List Directive
  | .cond kind condition body => .opening kind condition :: (blockDirectives body ++ [.closing])
  | .condElse kind condition body otherwise =>
    .opening kind condition ::
      (blockDirectives body ++ .otherwise :: (blockDirectives otherwise ++ [.closing]))

def blockDirectives : List Block → List Directive
  | [] => []
  | b :: bs => b.directives ++ blockDirectives bs

end

theorem blockDirectives_append (bs cs : List Block) :
    blockDirectives (bs ++ cs) = blockDirectives bs ++ blockDirectives cs := by
  induction bs with
  | nil => rfl
  | cons b bs ih => rw [List.cons_append, blockDirectives, blockDirectives, ih, List.append_assoc]

mutual

/-- The blocks that an item is: one for a conditional. -/
def Item.blocks : Item → List Block
  | .cond h body => [.cond h.kind h.condition (blocksOf body)]
  | .condElse h body otherwise => [.condElse h.kind h.condition (blocksOf body) (blocksOf otherwise)]
  | _ => []

/-- The blocks of a list of items. -/
def blocksOf : List Item → List Block
  | [] => []
  | i :: is => i.blocks ++ blocksOf is

end

/-! ## Reading blocks -/

/-- A block that is not closed yet. -/
structure OpenBlock where
  /-- The finished blocks in front of it. -/
  before : List Block
  kind : CondKind
  condition : String
  /-- Its first branch, once `#else` has come. -/
  body? : Option (List Block) := none

/-- The block closed, with the blocks of the branch that has been read last. -/
def OpenBlock.close (o : OpenBlock) (branch : List Block) : Block :=
  match o.body? with
  | none => .cond o.kind o.condition branch
  | some body => .condElse o.kind o.condition body branch

/-- How far a text has been read: the open blocks, the innermost first, and the finished blocks
behind the line that came last for it. -/
structure Reading where
  stack : List OpenBlock := []
  done : List Block := []

namespace Reading

/-- Reads a line, unless it is out of place. -/
def step? : Reading → Directive → Option Reading
  | ⟨stack, done⟩, .opening kind condition => some ⟨⟨done, kind, condition, none⟩ :: stack, []⟩
  | ⟨o :: stack, done⟩, .otherwise =>
    match o.body? with
    | none => some ⟨{ o with body? := some done } :: stack, []⟩
    | some _ => none
  | ⟨o :: stack, done⟩, .closing => some ⟨stack, o.before ++ [o.close done]⟩
  | ⟨[], _⟩, _ => none

end Reading

/-- The blocks of a sequence that is well nested. -/
def readBlocks? (ds : List Directive) : Option (List Block) := do
  let r ← ds.foldlM Reading.step? {}
  if r.stack.isEmpty then some r.done else none

/-! ### What is spelled is read -/

mutual

/-- A block is read off its lines, whatever is open around it and whatever follows. -/
theorem Block.foldlM_append : ∀ (b : Block) (stack : List OpenBlock) (done : List Block)
    (rest : List Directive), (b.directives ++ rest).foldlM Reading.step? ⟨stack, done⟩ =
      rest.foldlM Reading.step? ⟨stack, done ++ [b]⟩
  | .cond kind condition body, stack, done, rest => by
      let o : OpenBlock := { before := done, kind, condition }
      calc ((Block.cond kind condition body).directives ++ rest).foldlM Reading.step? ⟨stack, done⟩
          = (blockDirectives body ++ .closing :: rest).foldlM Reading.step? ⟨o :: stack, []⟩ := by
            rw [Block.directives, List.cons_append, List.append_assoc]
            rfl
        _ = (.closing :: rest).foldlM Reading.step? ⟨o :: stack, body⟩ :=
            foldlM_blockDirectives_append body (o :: stack) [] _
        _ = rest.foldlM Reading.step? ⟨stack, done ++ [.cond kind condition body]⟩ := rfl
  | .condElse kind condition body otherwise, stack, done, rest => by
      let o : OpenBlock := { before := done, kind, condition }
      let o' : OpenBlock := { o with body? := some body }
      calc ((Block.condElse kind condition body otherwise).directives ++ rest).foldlM
            Reading.step? ⟨stack, done⟩
          = (blockDirectives body ++ .otherwise :: (blockDirectives otherwise ++ .closing :: rest)).foldlM
              Reading.step? ⟨o :: stack, []⟩ := by
            rw [Block.directives, List.cons_append, List.append_assoc, List.cons_append,
              List.append_assoc]
            rfl
        _ = (.otherwise :: (blockDirectives otherwise ++ .closing :: rest)).foldlM
              Reading.step? ⟨o :: stack, body⟩ :=
            foldlM_blockDirectives_append body (o :: stack) [] _
        _ = (blockDirectives otherwise ++ .closing :: rest).foldlM
              Reading.step? ⟨o' :: stack, []⟩ := rfl
        _ = (.closing :: rest).foldlM Reading.step? ⟨o' :: stack, otherwise⟩ :=
            foldlM_blockDirectives_append otherwise (o' :: stack) [] _
        _ = rest.foldlM Reading.step? ⟨stack, done ++ [.condElse kind condition body otherwise]⟩ := rfl

theorem foldlM_blockDirectives_append : ∀ (bs : List Block) (stack : List OpenBlock)
    (done : List Block) (rest : List Directive),
    (blockDirectives bs ++ rest).foldlM Reading.step? ⟨stack, done⟩ =
      rest.foldlM Reading.step? ⟨stack, done ++ bs⟩
  | [], stack, done, rest => by
      rw [List.append_nil]
      rfl
  | b :: bs, stack, done, rest => by
      rw [blockDirectives, List.append_assoc, b.foldlM_append stack done,
        foldlM_blockDirectives_append bs stack, List.append_assoc]
      rfl

end

theorem readBlocks?_blockDirectives (bs : List Block) : readBlocks? (blockDirectives bs) = some bs := by
  have hread := foldlM_blockDirectives_append bs [] [] []
  rw [List.append_nil] at hread
  rw [readBlocks?, hread]
  rfl

/-! ### What is read has been spelled -/

/-- The lines of a block so far. -/
def OpenBlock.directives (o : OpenBlock) : List Directive :=
  blockDirectives o.before ++ .opening o.kind o.condition ::
    match o.body? with
    | none => []
    | some body => blockDirectives body ++ [.otherwise]

/-- The lines that have been read. -/
def Reading.directives (r : Reading) : List Directive :=
  r.stack.reverse.flatMap OpenBlock.directives ++ blockDirectives r.done

theorem OpenBlock.directives_close (o : OpenBlock) (branch : List Block) :
    blockDirectives (o.before ++ [o.close branch]) =
      o.directives ++ (blockDirectives branch ++ [.closing]) := by
  obtain ⟨before, kind, condition, body?⟩ := o
  rw [blockDirectives_append]
  cases body? <;> simp [directives, close, blockDirectives, Block.directives]

/-- A step keeps what has been read and adds the line. -/
theorem Reading.directives_step {r r' : Reading} {d : Directive} (h : r.step? d = some r') :
    r'.directives = r.directives ++ [d] := by
  obtain ⟨stack, done⟩ := r
  cases d with
  | opening kind condition =>
      cases h
      simp [directives, OpenBlock.directives, blockDirectives]
  | otherwise =>
      cases stack with
      | nil => cases h
      | cons o stack =>
          obtain ⟨before, kind, condition, body?⟩ := o
          cases body? with
          | some body => cases h
          | none =>
              cases h
              simp [directives, OpenBlock.directives, blockDirectives]
  | closing =>
      cases stack with
      | nil => cases h
      | cons o stack =>
          cases h
          simp [directives, OpenBlock.directives_close]

theorem Reading.directives_foldlM {ds : List Directive} : ∀ {r r' : Reading},
    ds.foldlM step? r = some r' → r'.directives = r.directives ++ ds := by
  induction ds with
  | nil =>
      intro r r' h
      cases h
      exact (List.append_nil _).symm
  | cons d ds ih =>
      intro r r' h
      rw [List.foldlM_cons] at h
      obtain ⟨m, hm, h⟩ := Option.bind_eq_some_iff.mp h
      rw [ih h, directives_step hm, List.append_assoc]
      rfl

/-- **Reading and spelling are inverse:** a sequence is read as blocks where it is what they spell. -/
theorem readBlocks?_eq_some_iff {ds : List Directive} {bs : List Block} :
    readBlocks? ds = some bs ↔ ds = blockDirectives bs := by
  constructor
  · intro h
    obtain ⟨⟨stack, done⟩, hr, hend⟩ := Option.bind_eq_some_iff.mp h
    cases stack with
    | cons o stack => cases hend
    | nil =>
        cases hend
        exact (Reading.directives_foldlM hr).symm
  · rintro rfl
    exact readBlocks?_blockDirectives bs

/-! ## The lines of items -/

section Lines

variable {l : String}

theorem isDirectiveLine_eq_false (h : '#' ∉ l.toList) : isDirectiveLine l = false := by
  rw [isDirectiveLine, beq_eq_false_iff_ne]
  intro hhead
  obtain ⟨rest, hrest⟩ := List.head?_eq_some_iff.mp hhead
  have hmem : '#' ∈ l.toList.dropWhile isBlank := hrest ▸ List.mem_cons_self
  exact h ((List.dropWhile_suffix isBlank).subset hmem)

theorem ofLine?_eq_none (h : isDirectiveLine l = false) : Directive.ofLine? l = none := by
  unfold Directive.ofLine?
  split
  · rename_i rest hrest
    rw [isDirectiveLine, hrest] at h
    exact absurd h (by simp)
  · rfl

theorem isDirectiveLine_of_some {d : Directive} (h : Directive.ofLine? l = some d) :
    isDirectiveLine l = true := by
  by_contra hl
  rw [ofLine?_eq_none (Bool.eq_false_iff.mpr hl)] at h
  cases h

/-- Indentation hides no line for the preprocessor, and makes none. -/
theorem dropWhile_lineAt (k : Nat) (l : String) :
    (lineAt k l).toList.dropWhile isBlank = l.toList.dropWhile isBlank := by
  by_cases hl : l = ""
  · subst hl
    rfl
  · rw [toList_lineAt k hl]
    exact List.dropWhile_append_of_pos fun c hc => by rw [List.eq_of_mem_replicate hc]; rfl

theorem ofLine?_lineAt (k : Nat) (l : String) :
    Directive.ofLine? (lineAt k l) = Directive.ofLine? l := by
  rw [Directive.ofLine?, dropWhile_lineAt, Directive.ofLine?]

theorem filter_eq_nil_of_lacks {ls : List String} (h : Lacks '#' ls) :
    ls.filter isDirectiveLine = [] :=
  List.filter_eq_nil_iff.mpr fun l hl => by rw [isDirectiveLine_eq_false (h l hl)]; decide

theorem filterMap_eq_nil_of_lacks {ls : List String} (h : Lacks '#' ls) :
    ls.filterMap Directive.ofLine? = [] :=
  List.filterMap_eq_nil_iff.mpr fun l hl => ofLine?_eq_none (isDirectiveLine_eq_false (h l hl))

/-- Only lines for the preprocessor are conditionals. -/
theorem filterMap_filter (ls : List String) :
    (ls.filter isDirectiveLine).filterMap Directive.ofLine? = ls.filterMap Directive.ofLine? := by
  rw [List.filterMap_filter]
  refine List.filterMap_congr fun l _ => ?_
  cases hl : isDirectiveLine l with
  | true => rfl
  | false => exact (ofLine?_eq_none hl).symm

end Lines

theorem ofLine?_openLine (h : CondHead) :
    Directive.ofLine? h.openLine = some (.opening h.kind h.condition) := by
  obtain ⟨kind, condition, indented, commented⟩ := h
  have hline : Directive.ofLine? (CondHead.mk kind condition indented commented).openLine =
      some (.opening kind (String.ofList condition.toList)) := by
    cases kind <;>
      (simp only [Directive.ofLine?, CondHead.openLine, CondHead.directive, String.toList_append]; rfl)
  rwa [String.ofList_toList] at hline

theorem ofLine?_closeLine (h : CondHead) : Directive.ofLine? h.closeLine = some .closing := by
  unfold CondHead.closeLine
  split
  · rw [Directive.ofLine?, String.toList_append, String.toList_append]
    rfl
  · rfl

theorem ofLine?_define (d : Define) : Directive.ofLine? d.line = none := by
  unfold Define.line
  split
  · rw [Directive.ofLine?, String.toList_append, String.toList_append, String.toList_append]
    rfl
  · rw [Directive.ofLine?, String.toList_append]
    rfl

theorem ofLine?_inclusion (i : Inclusion) : Directive.ofLine? i.line = none := by
  cases i with
  | quoted path =>
      rw [Inclusion.line, Directive.ofLine?, String.toList_append, String.toList_append]
      rfl
  | angled path =>
      rw [Inclusion.line, Directive.ofLine?, String.toList_append, String.toList_append]
      rfl

mutual

/-- **The conditionals among the lines of an item are its blocks,** since without a `#` in its strings
no other line can be one. -/
theorem Item.filterMap_lines : ∀ (i : Item) (k : Nat), Lacks '#' i.spellings → Lacks '#' i.texts →
    (i.lines k).filterMap Directive.ofLine? = blockDirectives i.blocks
  | .cond h body, k, hs, ht => by
      have hbody := filterMap_fragmentLines body (k + h.depth) (lacks_cons.mp hs).2 ht
      rw [Item.lines, List.filterMap_cons, ofLine?_lineAt, ofLine?_openLine, List.filterMap_append,
        hbody, List.filterMap_cons, ofLine?_lineAt, ofLine?_closeLine]
      exact (List.append_nil _).symm
  | .condElse h body otherwise, k, hs, ht => by
      obtain ⟨hsbody, hsother⟩ := lacks_append.mp (lacks_cons.mp hs).2
      obtain ⟨htbody, htother⟩ := lacks_append.mp ht
      have hbody := filterMap_fragmentLines body (k + h.depth) hsbody htbody
      have hother := filterMap_fragmentLines otherwise (k + h.depth) hsother htother
      have helse : Directive.ofLine? "#else" = some .otherwise := rfl
      rw [Item.lines, List.filterMap_cons, ofLine?_lineAt, ofLine?_openLine, List.filterMap_append,
        hbody, List.filterMap_cons, ofLine?_lineAt, helse, List.filterMap_append, hother,
        List.filterMap_cons, ofLine?_lineAt, ofLine?_closeLine]
      exact (List.append_nil _).symm
  | .inclusion i, k, _, _ => by
      rw [Item.lines, List.filterMap_cons, ofLine?_lineAt, ofLine?_inclusion]
      rfl
  | .define d, k, _, _ => by
      rw [Item.lines, List.filterMap_cons, ofLine?_lineAt, ofLine?_define]
      rfl
  | .comment _, k, hs, ht | .blank, k, hs, ht | .raw _, k, hs, ht | .typedefStruct _ _, k, hs, ht
  | .fnPointer _, k, hs, ht | .structDef _, k, hs, ht | .fnDecl _, k, hs, ht | .fnDef _ _, k, hs, ht
  | .var _, k, hs, ht | .array _, k, hs, ht =>
      filterMap_eq_nil_of_lacks (Item.lacks_lines (Or.inr rfl) rfl k hs fun _ => ht)

theorem filterMap_fragmentLines : ∀ (f : List Item) (k : Nat), Lacks '#' (spellingsOf f) →
    Lacks '#' (textsOf f) → (fragmentLines k f).filterMap Directive.ofLine? =
      blockDirectives (blocksOf f)
  | [], _, _, _ => rfl
  | i :: is, k, hs, ht => by
      obtain ⟨hsi, hsis⟩ := lacks_append.mp hs
      obtain ⟨hti, htis⟩ := lacks_append.mp ht
      rw [fragmentLines, List.filterMap_append, i.filterMap_lines k hsi hti,
        filterMap_fragmentLines is k hsis htis, blocksOf, blockDirectives_append]

end

/-- No string could make a line for the preprocessor. -/
abbrev Fragment.Hashless (f : Fragment) : Prop := Lacks '#' (spellingsOf f ++ textsOf f)

namespace Fragment

variable {f : Fragment}

theorem directiveLines_printAt (h : f.Unbroken) (k : Nat) :
    directiveLines (f.printAt k) = (fragmentLines k f).filter isDirectiveLine := by
  rw [directiveLines, cutLines_printAt h, List.filter_append]
  exact List.append_nil _

/-- **The conditionals of a printed text are the blocks of the fragment.** -/
theorem directivesOf_printAt (hh : f.Hashless) (h : f.Unbroken) (k : Nat) :
    directivesOf (f.printAt k) = blockDirectives (blocksOf f) := by
  obtain ⟨hs, ht⟩ := lacks_append.mp hh
  rw [directivesOf, directiveLines_printAt h, filterMap_filter, filterMap_fragmentLines f k hs ht]

end Fragment

/-! ## Files -/

/-- Newlines at the end are no lines for the preprocessor. -/
theorem directiveLines_append_newlines (s : String) (n : Nat) :
    directiveLines (s ++ newlines n) = directiveLines s := by
  induction n with
  | zero => rw [newlines, List.replicate_zero, String.ofList_nil, String.append_empty]
  | succ n ih =>
      have hsucc : newlines (n + 1) = newlines n ++ "\n" := by
        rw [newlines, List.replicate_succ', String.ofList_append]
        rfl
      rw [hsucc, ← String.append_assoc, directiveLines, cutLines_append_newline, List.filter_append]
      exact (List.append_nil _).trans ih

theorem oneNewline_replicate (n : Nat) :
    ∃ m, oneNewline (List.replicate n '\n') = List.replicate m '\n' := by
  induction n with
  | zero => exact ⟨0, rfl⟩
  | succ n ih =>
      cases n with
      | zero => exact ⟨1, rfl⟩
      | succ n => exact ih

/-- Tidying the end of a text drops or adds newlines only. -/
theorem exists_endLine_eq (s : String) : ∃ core m n, s = core ++ newlines m ∧
    (Buffer.mk s).endLine.text = core ++ newlines n := by
  by_cases h : ∃ c ∈ s.toList, c ≠ '\n'
  · obtain ⟨core, m, hcore, rfl⟩ := exists_endsVisible h
    exact ⟨core, m, 1, rfl, endLine_append_newlines hcore m⟩
  · have hs : s.toList = List.replicate s.toList.length '\n' :=
      List.eq_replicate_of_mem fun c hc => by_contra fun hne => h ⟨c, hc, hne⟩
    obtain ⟨n, hn⟩ := oneNewline_replicate s.toList.length
    refine ⟨"", s.toList.length, n, ?_, ?_⟩
    · rw [String.empty_append, newlines, ← hs, String.ofList_toList]
    · rw [String.empty_append, Buffer.endLine, hs, List.reverse_replicate, hn, List.reverse_replicate]
      rfl

theorem directiveLines_render (f : Fragment) : directiveLines f.render = directiveLines f.print := by
  obtain ⟨core, m, n, hprint, hrender⟩ := exists_endLine_eq f.print
  have hrender : f.render = core ++ newlines n := hrender
  rw [hrender, hprint, directiveLines_append_newlines, directiveLines_append_newlines]

/-! ## Guards -/

/-- A guard spans a text: the first line for the preprocessor opens it, and the last one closes it,
as what stands between them is well nested. -/
def SpannedBy (guard text : String) : Prop :=
  ∃ opening body closing, directiveLines text = opening :: (body ++ [closing]) ∧
    Directive.ofLine? opening = some (.opening .ifUndefined guard) ∧
    (readBlocks? (body.filterMap Directive.ofLine?)).isSome = true ∧
    Directive.ofLine? closing = some .closing

theorem spellingsOf_append (f g : Fragment) :
    spellingsOf (f ++ g) = spellingsOf f ++ spellingsOf g := by
  induction f with
  | nil => rfl
  | cons i is ih => simp [spellingsOf, ih]

theorem textsOf_append (f g : Fragment) : textsOf (f ++ g) = textsOf f ++ textsOf g := by
  induction f with
  | nil => rfl
  | cons i is ih => simp [textsOf, ih]

/-- Items that are not for the preprocessor print no line for it. -/
theorem filter_fragmentLines_eq_nil {f : Fragment} (hi : ∀ i ∈ f, i.isDirective = false) (k : Nat)
    (hs : Lacks '#' (spellingsOf f)) (ht : Lacks '#' (textsOf f)) :
    (fragmentLines k f).filter isDirectiveLine = [] := by
  induction f with
  | nil => rfl
  | cons i is ih =>
      obtain ⟨hi, his⟩ := List.forall_mem_cons.mp hi
      obtain ⟨hsi, hsis⟩ := lacks_append.mp hs
      obtain ⟨hti, htis⟩ := lacks_append.mp ht
      have hlines := Item.lacks_lines (Or.inr rfl) hi k hsi fun _ => hti
      rw [fragmentLines, List.filter_append, filter_eq_nil_of_lacks hlines, ih his hsis htis]
      rfl

section Frames

variable (f : Frame)

theorem isDirective_commentItem (text : String) : (commentItem text).isDirective = false := by
  unfold commentItem
  split <;> rfl

theorem isDirective_before : ∀ i ∈ f.before, i.isDirective = false := by
  unfold Frame.before
  split
  · exact fun _ hi => nomatch hi
  · exact List.forall_mem_cons.mpr ⟨isDirective_commentItem f.top, List.forall_mem_singleton.mpr rfl⟩

theorem isDirective_after : ∀ i ∈ f.after, i.isDirective = false := by
  unfold Frame.after
  split
  · exact fun _ hi => nomatch hi
  · exact List.forall_mem_cons.mpr
      ⟨rfl, List.forall_mem_singleton.mpr (isDirective_commentItem f.bottom)⟩

/-- The lines of a conditional for the preprocessor: its own around those of its branch. -/
theorem filter_lines_cond (h : CondHead) (body : Fragment) (k : Nat) :
    ((Item.cond h body).lines k).filter isDirectiveLine = lineAt k h.openLine ::
      ((fragmentLines (k + h.depth) body).filter isDirectiveLine ++ [lineAt k h.closeLine]) := by
  have hopen : isDirectiveLine (lineAt k h.openLine) = true :=
    isDirectiveLine_of_some ((ofLine?_lineAt k _).trans (ofLine?_openLine h))
  have hclose : isDirectiveLine (lineAt k h.closeLine) = true :=
    isDirectiveLine_of_some ((ofLine?_lineAt k _).trans (ofLine?_closeLine h))
  rw [Item.lines, List.filter_cons_of_pos hopen, List.filter_append, List.filter_cons_of_pos hclose,
    List.filter_nil]

/-- **The guard of a header spans it,** whatever the header holds. -/
theorem spannedBy_guarded {guard : String} {body : Fragment} (hh : (f.guarded guard body).Hashless)
    (h : (f.guarded guard body).Unbroken) : SpannedBy guard (f.guarded guard body).render := by
  let g : CondHead := ⟨.ifUndefined, guard, false, true⟩
  obtain ⟨inner, hinner⟩ : ∃ inner, guardItem guard body = .cond g inner := ⟨_, rfl⟩
  have hshape : f.guarded guard body = f.before ++ [.cond g inner] ++ f.after := hinner ▸ rfl
  rw [hshape] at hh h ⊢
  obtain ⟨hs, ht⟩ := lacks_append.mp hh
  rw [spellingsOf_append, spellingsOf_append, lacks_append, lacks_append] at hs
  rw [textsOf_append, textsOf_append, lacks_append, lacks_append] at ht
  have hbefore := filter_fragmentLines_eq_nil (isDirective_before f) 0 hs.1.1 ht.1.1
  have hafter := filter_fragmentLines_eq_nil (isDirective_after f) 0 hs.2 ht.2
  have hguard : (fragmentLines 0 [.cond g inner]).filter isDirectiveLine = lineAt 0 g.openLine ::
      ((fragmentLines 0 inner).filter isDirectiveLine ++ [lineAt 0 g.closeLine]) := by
    have hone : fragmentLines 0 [.cond g inner] = (Item.cond g inner).lines 0 := List.append_nil _
    rw [hone]
    exact filter_lines_cond g inner 0
  refine ⟨lineAt 0 g.openLine, (fragmentLines 0 inner).filter isDirectiveLine, lineAt 0 g.closeLine,
    ?_, ?_, ?_, ?_⟩
  · rw [directiveLines_render, Fragment.print, Fragment.directiveLines_printAt h,
      Fragment.lines_append, Fragment.lines_append, List.filter_append, List.filter_append, hbefore,
      hafter, hguard, List.nil_append, List.append_nil]
  · rw [ofLine?_lineAt, ofLine?_openLine]
  · have hsinner : Lacks '#' (spellingsOf inner) := (lacks_cons.mp (lacks_append.mp hs.1.2).1).2
    have htinner : Lacks '#' (textsOf inner) := (lacks_append.mp ht.1.2).1
    rw [filterMap_filter, filterMap_fragmentLines inner 0 hsinner htinner, readBlocks?_blockDirectives]
    rfl
  · rw [ofLine?_lineAt, ofLine?_closeLine]

end Frames

namespace Bindings

/-- The generated headers, each with its guard. -/
inductive IsHeader (b : Bindings) : String → Fragment → Prop where
  | ofClasses {path : String} {f : Fragment} (h : b.classHeader path = .ok f) :
    b.IsHeader (headerGuard path) f
  | ofParcel (p : Parcel) : b.IsHeader p.headerGuard (b.parcelHeader p)
  | ofPlatform : b.IsHeader platformGuard b.platformHeader
  | ofCallbacks : b.IsHeader callbacksGuard b.callbacksHeader

theorem IsHeader.exists_body {b : Bindings} {guard : String} {f : Fragment}
    (h : b.IsHeader guard f) : ∃ body, f = b.frame.guarded guard body := by
  cases h with
  | ofClasses h =>
      unfold classHeader at h
      split at h
      · cases h
      · cases h
        exact ⟨_, rfl⟩
  | ofParcel | ofPlatform | ofCallbacks => exact ⟨_, rfl⟩

end Bindings

/-- **Printed conditionals are balanced, and the guard of a header spans it.**  Where the strings of a
fragment hold no `#`, and no newline outside of comments and verbatim lines, the conditionals in its
text, at any indentation and as a file, are read as blocks, with one `#else` at most in each: those
that its conditional items are, nested as they are.  So in a generated header from such strings the
line that closes the guard is the last one that starts with `#`. -/
theorem conditionals_balanced :
    (∀ f : Fragment, f.Hashless → f.Unbroken →
      (∀ k, readBlocks? (directivesOf (f.printAt k)) = some (blocksOf f)) ∧
      readBlocks? (directivesOf f.render) = some (blocksOf f)) ∧
    ∀ (b : Bindings) (guard : String) (f : Fragment), b.IsHeader guard f → f.Hashless → f.Unbroken →
      SpannedBy guard f.render := by
  constructor
  · intro f hh h
    have hread : ∀ k, readBlocks? (directivesOf (f.printAt k)) = some (blocksOf f) := fun k =>
      readBlocks?_eq_some_iff.mpr (f.directivesOf_printAt hh h k)
    refine ⟨hread, ?_⟩
    rw [directivesOf, directiveLines_render]
    exact hread 0
  · intro b guard f hf hh h
    obtain ⟨body, rfl⟩ := hf.exists_body
    exact spannedBy_guarded b.frame hh h

/-- The header of the parcel `Zoo`, below a comment: three conditionals stand behind the guard, one of
them with an `#else`. -/
theorem zooHeader_spanned : ∃ b : Bindings, kennel.build = .ok b.hierarchy ∧
    ∃ p ∈ b.hierarchy.parcels, (b.parcelHeader p).Hashless ∧ (b.parcelHeader p).Unbroken ∧
      readBlocks? (directivesOf (b.parcelHeader p).render) = some (blocksOf (b.parcelHeader p)) ∧
      blockDirectives (blocksOf (b.parcelHeader p)) =
        [.opening .ifUndefined "CFISH_ZOO_PARCEL_H",
          .opening .ifDefined "__cplusplus", .closing,
          .opening .ifDefined "CFP_ZOO", .otherwise, .closing,
          .opening .ifDefined "__cplusplus", .closing, .closing] ∧
      SpannedBy p.headerGuard (b.parcelHeader p).render := by
  let b : Bindings := { hierarchy := kennelHierarchy, frame := { top := "The zoo\nof the town" } }
  have hfound : ∃ p ∈ b.hierarchy.parcels, p.name = "Zoo" ∧
      (b.parcelHeader p).Hashless ∧ (b.parcelHeader p).Unbroken ∧
      blockDirectives (blocksOf (b.parcelHeader p)) =
        [.opening .ifUndefined "CFISH_ZOO_PARCEL_H",
          .opening .ifDefined "__cplusplus", .closing,
          .opening .ifDefined "CFP_ZOO", .otherwise, .closing,
          .opening .ifDefined "__cplusplus", .closing, .closing] := by decide +kernel
  obtain ⟨p, hp, -, hh, hu, hblocks⟩ := hfound
  exact ⟨b, kennel_build, p, hp, hh, hu, (conditionals_balanced.1 _ hh hu).2, hblocks,
    conditionals_balanced.2 b _ _ (.ofParcel p) hh hu⟩

end ClassTables
