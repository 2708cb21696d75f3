import ClassTables.Binding.Header
import ClassTables.Output.Frame
/-!
# What a fragment holds

A fragment is printed from top to bottom, and a conditional shows one of its branches.  To say what
a fragment declares or defines, whatever the conditions, conditionals are opened up and both
branches are counted (`leavesOf`).  The items that are left are then read one kind at a time:
variables, arrays, functions, macros and structs.

The rows of an array are read by the comments that name their fields (`Initializer.field?`).
-/

namespace ClassTables

/-! ## Opening conditionals -/

mutual

/-- An item as a list of items without conditionals. -/
def Item.leaves : Item → List Item
  | .cond _ body => leavesOf body
  | .condElse _ body otherwise => leavesOf body ++ leavesOf otherwise
  | i => [i]

/-- A list of items with its conditionals opened up. -/
def leavesOf : List Item → List Item
  | [] => []
  | i :: is => i.leaves ++ leavesOf is

end

theorem leavesOf_append (f g : List Item) : leavesOf (f ++ g) = leavesOf f ++ leavesOf g := by
  induction f with
  | nil => rfl
  | cons i is ih => simp [leavesOf, ih]

/-! ## Reading items -/

namespace Item

def var? : Item → Option VarDecl
  | .var v => some v
  | _ => none

def array? : Item → Option ArrayDef
  | .array a => some a
  | _ => none

def function? : Item → Option (FnHead × List Stmt)
  | .fnDef f body => some (f, body)
  | _ => none

def define? : Item → Option Define
  | .define d => some d
  | _ => none

end Item

/-- What is read off the items of a fragment, in order. -/
def Fragment.collect {α : Type} (read : Item → Option α) (f : Fragment) : List α :=
  (leavesOf f).filterMap read

section Collect

variable {α : Type} {read : Item → Option α}

@[simp] theorem collect_nil : Fragment.collect read [] = [] := rfl

theorem collect_cons (i : Item) (f : Fragment) :
    Fragment.collect read (i :: f) = i.leaves.filterMap read ++ Fragment.collect read f := by
  simp [Fragment.collect, leavesOf]

@[simp] theorem collect_append (f g : Fragment) :
    Fragment.collect read (f ++ g) = Fragment.collect read f ++ Fragment.collect read g := by
  simp [Fragment.collect, leavesOf_append]

@[simp] theorem collect_cond (h : CondHead) (body : Fragment) :
    Fragment.collect read [.cond h body] = Fragment.collect read body := by
  simp [Fragment.collect, leavesOf, Item.leaves]

@[simp] theorem collect_condElse (h : CondHead) (body otherwise : Fragment) :
    Fragment.collect read [.condElse h body otherwise] =
      Fragment.collect read body ++ Fragment.collect read otherwise := by
  simp [Fragment.collect, leavesOf, Item.leaves]

theorem collect_flatMap {β : Type} (f : β → Fragment) (l : List β) :
    Fragment.collect read (l.flatMap f) = l.flatMap fun x => Fragment.collect read (f x) := by
  induction l with
  | nil => rfl
  | cons x l ih => simp [ih]

/-- What stands in a fragment, outside conditionals, is read. -/
theorem mem_collect {i : Item} {x : α} {f : Fragment} (hi : i ∈ f) (hleaf : i.leaves = [i])
    (hread : read i = some x) : x ∈ f.collect read := by
  obtain ⟨front, back, rfl⟩ := List.append_of_mem hi
  rw [collect_append, collect_cons, hleaf]
  simp [hread]

theorem not_mem_of_collect {i : Item} {x : α} {f : Fragment} (hf : f.collect read = [])
    (hleaf : i.leaves = [i]) (hread : read i = some x) : i ∉ f := by
  intro hi
  have hmem := mem_collect hi hleaf hread
  rw [hf] at hmem
  cases hmem

/-! Items, or pieces of a fragment, that are all of one form. -/

section Forms

variable {β : Type} {g : β → α} (l : List β)

theorem collect_map {f : β → Item} (h : ∀ x, (f x).leaves.filterMap read = [g x]) :
    Fragment.collect read (l.map f) = l.map g := by
  induction l with
  | nil => rfl
  | cons x l ih => simp [collect_cons, h, ih]

theorem collect_map_eq_nil {f : β → Item} (h : ∀ x, (f x).leaves.filterMap read = []) :
    Fragment.collect read (l.map f) = [] := by
  induction l with
  | nil => rfl
  | cons x l ih => simp [collect_cons, h, ih]

theorem collect_flatMap_eq_map {f : β → Fragment} (h : ∀ x, (f x).collect read = [g x]) :
    Fragment.collect read (l.flatMap f) = l.map g := by
  simp [collect_flatMap, h, List.map_eq_flatMap]

theorem collect_flatMap_eq_nil {f : β → Fragment} (h : ∀ x, (f x).collect read = []) :
    Fragment.collect read (l.flatMap f) = [] := by
  simp [collect_flatMap, h]

end Forms

end Collect

namespace Fragment

variable (f : Fragment)

/-- The variables that are declared or defined. -/
abbrev vars : List VarDecl := f.collect Item.var?

abbrev arrays : List ArrayDef := f.collect Item.array?

/-- The functions that are defined, with their bodies. -/
abbrev functions : List (FnHead × List Stmt) := f.collect Item.function?

abbrev defines : List Define := f.collect Item.define?

/-- The rows of the arrays of a name. -/
def rowsOf (name : String) : List Initializer :=
  (f.arrays.filter (·.name == name)).flatMap (·.rows)

/-- The bodies of the functions of a name. -/
def bodiesOf (name : String) : List (List Stmt) :=
  (f.functions.filter (·.1.name == name)).map (·.2)

end Fragment

/-- The value of the field that a comment names. -/
def Initializer.field? (row : Initializer) (comment : String) : Option String :=
  (row.find? (·.comment == some comment)).map (·.value)

/-! ## What readers pass over -/

/-- A reader that takes nothing from comments, from blank lines and from lines that are printed as
they are. -/
structure PassesFrames {α : Type} (read : Item → Option α) : Prop where
  comment : ∀ t, read (.comment t) = none
  raw : ∀ t, read (.raw t) = none
  blank : read .blank = none

/-- A reader that takes nothing from macros and inclusions either. -/
structure PassesDirectives {α : Type} (read : Item → Option α) : Prop extends PassesFrames read where
  define : ∀ d, read (.define d) = none
  inclusion : ∀ i, read (.inclusion i) = none

/-- A reader that takes nothing from macros and from functions, nor from the types of functions. -/
structure PassesFunctions {α : Type} (read : Item → Option α) : Prop extends PassesFrames read where
  define : ∀ d, read (.define d) = none
  fnPointer : ∀ p, read (.fnPointer p) = none
  fnDecl : ∀ f, read (.fnDecl f) = none
  fnDef : ∀ f body, read (.fnDef f body) = none

/-- A reader that takes nothing from structs either. -/
structure PassesSymbols {α : Type} (read : Item → Option α) : Prop extends PassesFunctions read where
  typedefStruct : ∀ tag name, read (.typedefStruct tag name) = none
  structDef : ∀ s, read (.structDef s) = none

theorem passes_var : PassesDirectives Item.var? :=
  ⟨⟨fun _ => rfl, fun _ => rfl, rfl⟩, fun _ => rfl, fun _ => rfl⟩

theorem passes_array : PassesDirectives Item.array? :=
  ⟨⟨fun _ => rfl, fun _ => rfl, rfl⟩, fun _ => rfl, fun _ => rfl⟩

theorem passes_function : PassesDirectives Item.function? :=
  ⟨⟨fun _ => rfl, fun _ => rfl, rfl⟩, fun _ => rfl, fun _ => rfl⟩

theorem passes_define : PassesFrames Item.define? := ⟨fun _ => rfl, fun _ => rfl, rfl⟩

theorem passesSymbols_var : PassesSymbols Item.var? :=
  ⟨⟨passes_var.toPassesFrames, fun _ => rfl, fun _ => rfl, fun _ => rfl, fun _ _ => rfl⟩,
    fun _ _ => rfl, fun _ => rfl⟩

section Frames

variable {α : Type} {read : Item → Option α} {comment : String} {body : Fragment}

/-- A title adds a comment and blank lines only. -/
theorem collect_titled (h : PassesFrames read) :
    (titled comment body).collect read = body.collect read := by
  simp [titled, collect_cons, Item.leaves, h.comment, h.blank]

@[simp] theorem vars_titled : (titled comment body).vars = body.vars :=
  collect_titled passes_var.toPassesFrames

@[simp] theorem arrays_titled : (titled comment body).arrays = body.arrays :=
  collect_titled passes_array.toPassesFrames

@[simp] theorem functions_titled : (titled comment body).functions = body.functions :=
  collect_titled passes_function.toPassesFrames

/-! So does the frame of a file, which may show a comment as it is. -/

theorem collect_before (h : PassesFrames read) (f : Frame) : f.before.collect read = [] := by
  unfold Frame.before commentItem
  split
  · rfl
  · split <;> simp [collect_cons, Item.leaves, h.comment, h.raw, h.blank]

theorem collect_after (h : PassesFrames read) (f : Frame) : f.after.collect read = [] := by
  unfold Frame.after commentItem
  split
  · rfl
  · split <;> simp [collect_cons, Item.leaves, h.comment, h.raw, h.blank]

theorem collect_wrap (h : PassesFrames read) (f : Frame) :
    (f.wrap body).collect read = body.collect read := by
  simp [Frame.wrap, collect_before h, collect_after h]

/-- A guard adds the macro that it defines. -/
theorem collect_guarded (h : PassesFrames read) (f : Frame) (guard : String) :
    (f.guarded guard body).collect read =
      (read (.defineAs guard "1")).toList ++ body.collect read := by
  have hopen : Fragment.collect read
      [.defineAs guard "1", .blank, plusPlusOnly "extern \"C\" \x7b", .blank] =
        (read (.defineAs guard "1")).toList := by
    cases hdefine : read (.defineAs guard "1") <;>
      simp_all [collect_cons, plusPlusOnly, Item.leaves, leavesOf, Item.defineAs, h.blank, h.raw]
  have hclose : Fragment.collect read [.blank, plusPlusOnly "\x7d", .blank] = [] := by
    simp [collect_cons, plusPlusOnly, Item.leaves, leavesOf, h.blank, h.raw]
  unfold Frame.guarded guardItem
  rw [collect_wrap h, collect_cond, collect_append, collect_append, hopen, hclose, List.append_nil]

end Frames

end ClassTables
