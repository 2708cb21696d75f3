import ClassTables.Proofs.PrintedLines
/-!
# Indentation

Conditionals, bodies, fields and rows move what they hold to the right, each by its own amount.
Whatever is printed, the indentation around it adds up with its own: to print at a deeper place is to
put more spaces in front of each line that is not empty (`Item.lines_add`).  Verbatim lines are no
exception, and neither are the empty lines among them.

Main statement: `indentation_uniform`.  A fragment inside conditionals is printed as it is outside of
them, further to the right by the sum of what the conditionals add (`fragmentLines_nested`).
-/

namespace ClassTables

/-! ## Lines -/

theorem Text.spaces_append (j k : Nat) : spaces j ++ spaces k = spaces (j + k) := by
  rw [spaces, spaces, spaces, ← String.ofList_append, List.replicate_append_replicate]

/-- Indentation adds up. -/
theorem lineAt_lineAt (k j : Nat) (text : String) : lineAt k (lineAt j text) = lineAt (k + j) text := by
  by_cases h : text = ""
  · subst h
    rfl
  · have hj : lineAt j text ≠ "" := fun he => by
      rw [lineAt, if_neg (by simpa using h), String.append_eq_empty_iff] at he
      exact h he.2
    rw [lineAt, if_neg (by simpa using hj), lineAt, if_neg (by simpa using h), lineAt,
      if_neg (by simpa using h), ← String.append_assoc, Text.spaces_append]

theorem map_lineAt_lineAt (k j : Nat) (ls : List String) :
    (ls.map (lineAt j)).map (lineAt k) = ls.map (lineAt (k + j)) := by
  rw [List.map_map]
  exact List.map_congr_left fun l _ => lineAt_lineAt k j l

mutual

theorem Stmt.lines_add (k : Nat) : ∀ (s : Stmt) (j : Nat),
    s.lines (k + j) = (s.lines j).map (lineAt k)
  | .line text, j => (map_lineAt_lineAt k j [text]).symm
  | .ret v, j => (map_lineAt_lineAt k j [returnText v]).symm
  | .cond test body, j => by
      rcases Stmt.lines_cond test body with ⟨v, -, hlines⟩ | hlines
      · rw [hlines, hlines]
        exact (map_lineAt_lineAt k j [_]).symm
      · rw [hlines, hlines, Nat.add_assoc, stmtLines_add k body (j + bodyIndent)]
        simp only [List.map_cons, List.map_append, List.map_nil, lineAt_lineAt]

theorem stmtLines_add (k : Nat) : ∀ (ss : List Stmt) (j : Nat),
    stmtLines (k + j) ss = (stmtLines j ss).map (lineAt k)
  | [], _ => rfl
  | s :: ss, j => by
      rw [stmtLines, stmtLines, s.lines_add k j, stmtLines_add k ss j, List.map_append]

end

theorem fieldLines_add (k j : Nat) : ∀ row : Initializer,
    fieldLines (k + j) row = (fieldLines j row).map (lineAt k)
  | [] => rfl
  | f :: fs => by
      rw [fieldLines, fieldLines, fieldLines_add k j fs, List.map_cons, lineAt_lineAt]

theorem rowLines_add (k j : Nat) : ∀ rows : List Initializer,
    rowLines (k + j) rows = (rowLines j rows).map (lineAt k)
  | [] => rfl
  | row :: rows => by
      rw [rowLines, rowLines, Nat.add_assoc, fieldLines_add k (j + bodyIndent) row,
        rowLines_add k j rows]
      simp only [List.map_cons, List.map_append, lineAt_lineAt]

mutual

/-- **A deeper item has more spaces in front of its lines,** and is the same item otherwise. -/
theorem Item.lines_add (k : Nat) : ∀ (i : Item) (j : Nat),
    i.lines (k + j) = (i.lines j).map (lineAt k)
  | .comment text, j => (map_lineAt_lineAt k j (commentLines text)).symm
  | .blank, _ => rfl
  | .raw text, j => (map_lineAt_lineAt k j (Text.lines text)).symm
  | .inclusion i, j => (map_lineAt_lineAt k j [i.line]).symm
  | .define d, j => (map_lineAt_lineAt k j [d.line]).symm
  | .typedefStruct _ _, j => (map_lineAt_lineAt k j [_]).symm
  | .fnPointer _, j => (map_lineAt_lineAt k j [_, _]).symm
  | .fnDecl f, j => (map_lineAt_lineAt k j [f.returnLine, _]).symm
  | .var v, j => (map_lineAt_lineAt k j [v.line]).symm
  | .structDef s, j => by
      rw [Item.lines, Item.lines, Nat.add_assoc, ← map_lineAt_lineAt]
      simp only [List.map_cons, List.map_append, List.map_nil, lineAt_lineAt]
  | .fnDef f body, j => by
      rw [Item.lines, Item.lines, Nat.add_assoc, stmtLines_add k body (j + bodyIndent)]
      simp only [List.map_cons, List.map_append, List.map_nil, lineAt_lineAt]
  | .array a, j => by
      rw [Item.lines, Item.lines, Nat.add_assoc, rowLines_add k (j + bodyIndent)]
      simp only [List.map_cons, List.map_append, List.map_nil, lineAt_lineAt]
  | .cond h body, j => by
      rw [Item.lines, Item.lines, Nat.add_assoc, fragmentLines_add k body (j + h.depth)]
      simp only [List.map_cons, List.map_append, List.map_nil, lineAt_lineAt]
  | .condElse h body otherwise, j => by
      rw [Item.lines, Item.lines, Nat.add_assoc, fragmentLines_add k body (j + h.depth),
        fragmentLines_add k otherwise (j + h.depth)]
      simp only [List.map_cons, List.map_append, List.map_nil, lineAt_lineAt]

theorem fragmentLines_add (k : Nat) : ∀ (f : List Item) (j : Nat),
    fragmentLines (k + j) f = (fragmentLines j f).map (lineAt k)
  | [], _ => rfl
  | i :: is, j => by
      rw [fragmentLines, fragmentLines, i.lines_add k j, fragmentLines_add k is j, List.map_append]

end

/-! ## Texts -/

/-- A text with `k` spaces in front of each line that is not empty. -/
def Text.indented (k : Nat) (s : String) : String :=
  "\n".intercalate ((Text.cutLines s).map (lineAt k))

example : Text.indented 2 "#if X\n\nint x;\n" = "  #if X\n\n  int x;\n" := by decide

theorem Text.intercalate_newline (ls : List String) : "\n".intercalate (ls ++ [""]) = ended ls := by
  induction ls with
  | nil => rfl
  | cons l ls ih =>
      obtain ⟨m, ms, hls⟩ := List.exists_cons_of_ne_nil (List.append_ne_nil_of_right_ne_nil ls
        (List.cons_ne_nil "" []))
      rw [List.cons_append, hls, String.intercalate_cons_cons, ← hls, ih, ended_cons]

/-- The text of an item, every line ended. -/
def Item.printAt (k : Nat) (i : Item) : String := Text.ended (i.lines k)

namespace Fragment

/-- A fragment is printed deeper as its text with more spaces. -/
theorem printAt_eq_indented {f : Fragment} (h : f.Unbroken) (k : Nat) :
    f.printAt k = Text.indented k f.print := by
  have hlines : fragmentLines k f = (fragmentLines 0 f).map (lineAt k) := fragmentLines_add k f 0
  rw [Text.indented, print, cutLines_printAt h, List.map_append, ← hlines]
  exact (Text.intercalate_newline (fragmentLines k f)).symm

/-- A fragment is printed item by item. -/
theorem printAt_eq_join (k : Nat) (f : Fragment) :
    f.printAt k = String.join (f.map (Item.printAt k)) := by
  have hended : f.printAt k = Text.ended (fragmentLines k f) := rfl
  rw [hended]
  induction f with
  | nil => rfl
  | cons i is ih =>
      rw [fragmentLines, Text.ended_append, ih rfl, List.map_cons, String.join_cons]
      rfl

end Fragment

/-! ## Fragments inside conditionals -/

/-- The branch of a conditional that is left open, with the other one. -/
inductive OpenBranch where
  | only
  | first (otherwise : Fragment)
  | second (body : Fragment)

/-- A conditional with a gap among the items of a branch. -/
structure Nest where
  head : CondHead
  branch : OpenBranch
  before : Fragment := []
  after : Fragment := []

/-- The conditional with the gap filled. -/
def Nest.fill (n : Nest) (f : Fragment) : Item :=
  match n.branch with
  | .only => .cond n.head (n.before ++ f ++ n.after)
  | .first otherwise => .condElse n.head (n.before ++ f ++ n.after) otherwise
  | .second body => .condElse n.head body (n.before ++ f ++ n.after)

/-- A fragment inside conditionals, the outermost first. -/
def nested (ns : List Nest) (f : Fragment) : Fragment := ns.foldr (fun n g => [n.fill g]) f

/-- How much deeper conditionals put what stands inside all of them: the sum of what each adds. -/
def nestDepth : List Nest → Nat
  | [] => 0
  | n :: ns => n.head.depth + nestDepth ns

/-- The lines of a conditional do not depend on what fills the gap, but for those in the gap. -/
theorem Nest.lines_fill (n : Nest) (k : Nat) : ∃ front back : List String, ∀ f : Fragment,
    (n.fill f).lines k = front ++ fragmentLines (k + n.head.depth) f ++ back := by
  obtain ⟨h, branch, before, after⟩ := n
  let opening := lineAt k h.openLine
  let closing := lineAt k h.closeLine
  let lines := fragmentLines (k + h.depth)
  cases branch with
  | only =>
      refine ⟨opening :: lines before, lines after ++ [closing], fun f => ?_⟩
      simp [fill, Item.lines, opening, closing, lines]
  | first otherwise =>
      refine ⟨opening :: lines before,
        lines after ++ lineAt k "#else" :: (lines otherwise ++ [closing]), fun f => ?_⟩
      simp [fill, Item.lines, opening, closing, lines]
  | second body =>
      refine ⟨opening :: (lines body ++ lineAt k "#else" :: lines before),
        lines after ++ [closing], fun f => ?_⟩
      simp [fill, Item.lines, opening, closing, lines]

/-- **Inside conditionals a fragment is as much deeper as they are indented together.** -/
theorem fragmentLines_nested : ∀ (ns : List Nest) (k : Nat), ∃ front back : List String,
    ∀ f : Fragment, fragmentLines k (nested ns f) =
      front ++ fragmentLines (k + nestDepth ns) f ++ back
  | [], _ => ⟨[], [], fun f => by rw [List.append_nil]; rfl⟩
  | n :: ns, k => by
      obtain ⟨front, back, hfill⟩ := n.lines_fill k
      obtain ⟨front', back', hnested⟩ := fragmentLines_nested ns (k + n.head.depth)
      refine ⟨front ++ front', back' ++ back, fun f => ?_⟩
      have hdepth : k + nestDepth (n :: ns) = k + n.head.depth + nestDepth ns :=
        (Nat.add_assoc k n.head.depth (nestDepth ns)).symm
      have hone : fragmentLines k (nested (n :: ns) f) = (n.fill (nested ns f)).lines k :=
        List.append_nil _
      rw [hone, hfill, hnested, hdepth]
      simp only [List.append_assoc]

/-- **Indentation is uniform.**  A fragment whose spellings hold no newline is printed at any
indentation as it is at the margin, with that many spaces in front of each line that is not empty.  A
fragment is printed item by item.  So conditionals around a fragment, however deep and with whatever
else in them, print their own lines and put spaces in front of those of the fragment, as many as their
branches are indented together. -/
theorem indentation_uniform :
    (∀ (f : Fragment) (k : Nat), f.Unbroken → f.printAt k = Text.indented k f.print) ∧
    (∀ (f : Fragment) (k : Nat), f.printAt k = String.join (f.map (Item.printAt k))) ∧
    ∀ (ns : List Nest) (k : Nat), ∃ front back : List String, ∀ f : Fragment, f.Unbroken →
      (nested ns f).printAt k =
        Text.ended front ++ Text.indented (k + nestDepth ns) f.print ++ Text.ended back := by
  refine ⟨fun f k h => Fragment.printAt_eq_indented h k, fun f k => Fragment.printAt_eq_join k f, ?_⟩
  intro ns k
  obtain ⟨front, back, hlines⟩ := fragmentLines_nested ns k
  refine ⟨front, back, fun f h => ?_⟩
  calc (nested ns f).printAt k
      = Text.ended (front ++ fragmentLines (k + nestDepth ns) f ++ back) := congrArg Text.ended (hlines f)
    _ = Text.ended front ++ f.printAt (k + nestDepth ns) ++ Text.ended back := by
        rw [Text.ended_append, Text.ended_append]
        rfl
    _ = Text.ended front ++ Text.indented (k + nestDepth ns) f.print ++ Text.ended back := by
        rw [Fragment.printAt_eq_indented h]

/-- A comment of two lines, verbatim lines with an empty one among them, and a function. -/
def feeding : Fragment :=
  [.comment "Feeds\nall", .raw "int left;\n\n#define MEAL 1",
   .fnDef { returns := "void", name := "feed", params := "int n" }
     [.cond "n > 1" [.line "feed(n - 1);", .line "left--;"], .ret none]]

/-- In the first branch of one conditional and inside another, both indented, the lines stand four
spaces to the right. -/
theorem feeding_indented :
    feeding.Unbroken ∧ feeding.printAt 4 = Text.indented 4 feeding.print ∧
    Text.indented 4 feeding.print =
      "    /* Feeds\n     * all\n     */\n    int left;\n\n    #define MEAL 1\n" ++
      "    void\n    feed(int n) \x7b\n        if (n > 1) \x7b\n            feed(n - 1);\n" ++
      "            left--;\n        \x7d\n        return;\n    \x7d\n" ∧
    ∃ front back : List String,
      (nested [{ head := ⟨.ifDefined, "KEEPER", true, false⟩, branch := .first [.flag "CLOSED"] },
          { head := ⟨.ifHolds, "HUNGRY > 0", true, true⟩, branch := .only, before := [.blank] }]
        feeding).printAt 0 = Text.ended front ++ Text.indented 4 feeding.print ++ Text.ended back := by
  have h : feeding.Unbroken := by decide +kernel
  obtain ⟨front, back, hnested⟩ := indentation_uniform.2.2
    [{ head := ⟨.ifDefined, "KEEPER", true, false⟩, branch := .first [.flag "CLOSED"] },
      { head := ⟨.ifHolds, "HUNGRY > 0", true, true⟩, branch := .only, before := [.blank] }] 0
  exact ⟨h, indentation_uniform.1 feeding 4 h, by decide +kernel, front, back, hnested feeding h⟩

end ClassTables
