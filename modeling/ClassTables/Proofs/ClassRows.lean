import ClassTables.Proofs.BootProgram
import ClassTables.Proofs.ClassContents
import ClassTables.Proofs.DirectCalls
import ClassTables.Proofs.ParcelOrder
/-!
# The tables of C and the tables of the runtime

The same classes are described twice: by the arrays in the source of a parcel, from which the object
system loads them in C, and by the specification of the parcel (`Hierarchy.runtimeParcel`).  Here
the arrays are read row by row and compared with the specification.

Main statements: the row and the arrays of a class say what its specification says (`tabled`), and
so does the source of a parcel, class by class (`class_specs_runtimeParcel`).
-/

namespace ClassTables

/-! ## What a specification lists -/

/-- The entries that a specification lists under a kind: the method, and what it puts into the slot,
unless the slot stays as it is. -/
def ClassSpec.entries {F : Type} (s : ClassSpec F) : MethodKind → List (String × Option (Slot F))
  | .novel => s.novel.map fun m => (m.name, some m.slot)
  | .overridden => s.overridden.map fun m => (m.name, some m.slot)
  | .inherited => s.inherited.map fun n => (n, none)

namespace Class

/-- What a specification lists for a method of a kind. -/
def entryOf (m : Method) : MethodKind → String × Option (Slot String)
  | .novel => (m.name, some m.slot)
  | .overridden => (m.name, some m.slot)
  | .inherited => (m.name, none)

theorem entries_specOf (c : Class) (layout : IvarsLayout) (k : MethodKind) :
    (c.specOf layout).entries k = (c.methods.filter (c.kindOf · == k)).map (entryOf · k) := by
  cases k <;> simp [ClassSpec.entries, specOf, entryOf, Method.namedSlot]

/-! ## Rows of methods -/

/-- A function that reports a call of an abstract method under this name. -/
def IsStub (name : String) (body : List Stmt) : Prop :=
  ∃ v, Stmt.line ("cfish_Err_abstract_method_call((cfish_Obj*)self, " ++ v ++ ", \"" ++ name ++
    "\");") ∈ body

/-- The function of a row is the one that the specification names.  For an abstract slot it is a stub
that the data of the class defines. -/
def FuncFor (c : Class) (row : Initializer) (name : String) : Option (Slot String) → Prop
  | some (.implemented f) => row.field? "func" = some ("(cfish_method_t)" ++ f)
  | some .abstract => ∃ f ∈ c.dataFragment.functions,
      row.field? "func" = some ("(cfish_method_t)" ++ f.1.name) ∧ IsStub name f.2
  | none => row.field? "func" = none

/-- A row is for the method of an entry: its offset is that of the method, the row of a novel method
has the name besides, and the function is the one that the entry asks for. -/
structure RowFor (c : Class) (k : MethodKind) (row : Initializer)
    (entry : String × Option (Slot String)) : Prop where
  offset : ∃ m ∈ c.methods, m.name = entry.1 ∧
    row.field? "offset" = some ("&" ++ m.fullOffsetSym c.toClassHead)
  name : row.field? "name" = if k = .novel then some ("\"" ++ entry.1 ++ "\"") else none
  func : c.FuncFor row entry.1 entry.2

variable {c : Class} {m : Method} {k : MethodKind}

/-- The stub of an abstract method reports the name of the method. -/
theorem isStub_abstractBody (b : MethodBinding) : IsStub b.method.name b.abstractBody :=
  ⟨_, List.mem_append_right _ List.mem_cons_self⟩

/-- An abstract method that is not inherited has a stub in the data. -/
theorem stub_mem_functions (hinert : c.inert = false) (hm : m ∈ c.methods)
    (hk : c.kindOf m ≠ .inherited) (habstract : m.isAbstract = true) :
    ((⟨m, c⟩ : MethodBinding).abstractHead, (⟨m, c⟩ : MethodBinding).abstractBody) ∈
      c.dataFragment.functions := by
  have hstub : (⟨m, c⟩ : MethodBinding).needsStub = true := by
    unfold MethodBinding.needsStub MethodBinding.kind
    simp [hk, habstract]
  rw [functions_dataFragment c hinert]
  exact List.mem_map_of_mem (List.mem_filter.mpr ⟨List.mem_map_of_mem hm, hstub⟩)

/-- The function of a slot, as the row of a novel or overridden method names it. -/
theorem func_of_slot (hinert : c.inert = false) (hm : m ∈ c.methods)
    (hk : c.kindOf m ≠ .inherited) {row : Initializer}
    (hfunc : row.field? "func" = some (⟨m, c⟩ : MethodBinding).funcRef) :
    c.FuncFor row m.name (some m.slot) := by
  by_cases habstract : m.isAbstract = true
  · rw [Method.slot, if_pos habstract]
    exact ⟨_, stub_mem_functions hinert hm hk habstract, hfunc, isStub_abstractBody ⟨m, c⟩⟩
  · rw [Method.slot, if_neg habstract]
    exact hfunc

/-- **The row of a method is for the entry that the specification has for it.** -/
theorem rowFor_rowOf (hinert : c.inert = false) (hm : m ∈ c.methods) (hk : c.kindOf m = k) :
    c.RowFor k (rowOf ⟨m, c⟩ k) (entryOf m k) := by
  cases k with
  | novel =>
      exact ⟨⟨m, hm, rfl, rfl⟩, rfl, func_of_slot hinert hm (by simp [hk]) rfl⟩
  | overridden =>
      exact ⟨⟨m, hm, rfl, rfl⟩, rfl, func_of_slot hinert hm (by simp [hk]) rfl⟩
  | inherited => exact ⟨⟨m, hm, rfl, rfl⟩, rfl, rfl⟩

/-- **An array and a list of the specification are for the same methods, in the same order.** -/
theorem rows_forall₂_entries (hinert : c.inert = false) (layout : IvarsLayout) (k : MethodKind) :
    List.Forall₂ (c.RowFor k) (c.dataFragment.rowsOf (c.arrayName k))
      ((c.specOf layout).entries k) := by
  rw [rowsOf_dataFragment c hinert, bindingsOfKind_eq, entries_specOf, List.map_map,
    List.forall₂_map_left_iff, List.forall₂_map_right_iff, List.forall₂_same]
  intro m hm
  obtain ⟨hm, hk⟩ := List.mem_filter.mp hm
  exact rowFor_rowOf hinert hm (beq_iff_eq.mp hk)

end Class

/-! ## Rows of classes -/

namespace ClassRow

/-- How many methods of a kind a row announces. -/
def count (r : ClassRow) : MethodKind → Nat
  | .novel => r.numNovel
  | .overridden => r.numOverridden
  | .inherited => r.numInherited

/-- The field that announces them. -/
def countField : MethodKind → String
  | .novel => "num_novel"
  | .overridden => "num_overridden"
  | .inherited => "num_inherited"

/-- The field that names their array. -/
def arrayField : MethodKind → String
  | .novel => "novel_meth_specs"
  | .overridden => "overridden_meth_specs"
  | .inherited => "inherited_meth_specs"

variable (r : ClassRow) (k : MethodKind)

theorem field?_count : r.toInitializer.field? (countField k) = some (toString (r.count k)) := by
  cases k <;> rfl

theorem field?_array : r.toInitializer.field? (arrayField k) = some (r.arrayRef k (r.count k)) := by
  cases k <;> rfl

end ClassRow

namespace Class

/-- The row of a class, and the arrays in its data, say what a specification says. -/
structure Tabled (c : Class) (row : Initializer) (spec : ClassSpec String) : Prop where
  isRow : row = c.row.toInitializer
  name : row.field? "name" = some ("\"" ++ spec.name ++ "\"")
  classVar : row.field? "class" = some ("&" ++ c.fullClassVar)
  /-- Rows and entries stand for each other, one by one. -/
  rows : ∀ k, List.Forall₂ (c.RowFor k) (c.dataFragment.rowsOf (c.arrayName k)) (spec.entries k)
  counts : ∀ k, c.row.count k = (spec.entries k).length
  countFields : ∀ k, row.field? (ClassRow.countField k) =
    some (toString (spec.entries k).length)
  /-- The row names an array exactly when the data has it. -/
  arrays : ∀ k, row.field? (ClassRow.arrayField k) =
    some (if ∃ a ∈ c.dataFragment.arrays, a.name = c.arrayName k then c.arrayName k else "NULL")

variable {c : Class}

theorem row_count (c : Class) (k : MethodKind) : c.row.count k = (c.bindingsOfKind k).length := by
  rw [bindingsOfKind_eq, List.length_map]
  cases k <;> rfl

/-- **What the tables of C say about a class is what its specification says.** -/
theorem tabled (hinert : c.inert = false) {target : Target} {spec : ClassSpec String}
    (hspec : c.runtimeSpec target = .ok spec) : c.Tabled c.row.toInitializer spec := by
  obtain ⟨layout, -, rfl⟩ := runtimeSpec_eq_ok_iff.mp hspec
  have hcount : ∀ k, c.row.count k = ((c.specOf layout).entries k).length := by
    intro k
    rw [row_count, bindingsOfKind_eq, entries_specOf, List.length_map, List.length_map]
  refine ⟨rfl, rfl, rfl, rows_forall₂_entries hinert layout, hcount, fun k => ?_, fun k => ?_⟩
  · rw [ClassRow.field?_count, hcount]
  · rw [ClassRow.field?_array, ClassRow.arrayRef, row_count]
    have hlength : (c.bindingsOfKind k).length = 0 ↔ c.bindingsOfKind k = [] :=
      List.length_eq_zero_iff
    by_cases hk : c.bindingsOfKind k = []
    · rw [if_pos (hlength.mpr hk), if_neg]
      rw [exists_array_iff c hinert]
      exact not_not.mpr hk
    · rw [if_neg (mt hlength.mp hk), if_pos ((exists_array_iff c hinert k).mpr hk)]
      rfl

end Class

/-! ## The source of a parcel -/

/-- The line that loads classes, if the statement is one. -/
def Stmt.load? : Stmt → Option String
  | .line text =>
    match readAction? text with
    | some (.load _) => some text
    | _ => none
  | _ => none

/-- The classes are loaded once, and the table is named unless there are none. -/
theorem Hierarchy.loads_inheritanceSteps (h : Hierarchy) (p : Parcel) :
    ((h.inheritanceSteps p).map BootStep.toStmt).filterMap Stmt.load? =
      ["cfish_Class_bootstrap(" ++ BootStep.classTable (h.dynamicClassesOf p).length ++ ", " ++
        toString (h.dynamicClassesOf p).length ++ ");"] := by
  have hset : ∀ n, (BootStep.setState n).toStmt.load? = none := by
    intro n
    simp only [BootStep.toStmt, Stmt.load?, readAction?_setState]
  have hload : ∀ n, (BootStep.loadClasses n).toStmt.load? =
      some ("cfish_Class_bootstrap(" ++ BootStep.classTable n ++ ", " ++ toString n ++ ");") := by
    intro n
    simp only [BootStep.toStmt, Stmt.load?, readAction?_load]
  have hcalls : (((h.inheritedParcels p).map fun q => BootStep.callInheritance q.lowerPrefix).map
      BootStep.toStmt).filterMap Stmt.load? = [] := by
    rw [List.map_map, List.filterMap_map, List.filterMap_eq_nil_iff]
    intro q _
    have hline : q.lowerPrefix ++ "bootstrap_inheritance();" = q.bootInheritanceName ++ "();" := by
      rw [Parcel.bootInheritanceName, String.append_assoc]
      rfl
    simp only [Function.comp_apply, BootStep.toStmt, Stmt.load?, hline, readAction?_call]
  have habort : BootStep.abortOnCycle.toStmt.load? = none := rfl
  have hreturn : ∀ n, (BootStep.returnFrom n).toStmt.load? = none := fun _ => rfl
  rw [inheritanceSteps, List.map_append, List.map_append, List.filterMap_append,
    List.filterMap_append, hcalls]
  simp [habort, hreturn, hset, hload]

namespace Bindings

variable {b : Bindings} {p : Parcel}

/-- The source holds the data of each of its classes, in one piece. -/
theorem dataFragment_infix {c : Class} (hc : c ∈ b.hierarchy.classesOf p) :
    c.dataFragment <:+: b.parcelSource p := by
  obtain ⟨front, back, hsplit⟩ := List.append_of_mem hc
  have hdata : c.dataFragment <:+: (b.hierarchy.classesOf p).flatMap (·.dataFragment) := by
    rw [hsplit, List.flatMap_append, List.flatMap_cons, ← List.append_assoc]
    exact List.infix_append _ _ _
  rw [parcelSource_eq, ← List.append_assoc]
  exact hdata.trans (List.infix_append _ _ _)

/-- **The tables of C and those of the runtime describe the same classes.**  The rows of
`class_specs` are, in order, for the classes of the specification of the parcel.  The arrays and the
row of each class say what its specification says.  The source loads the classes once: it passes
their number, and the table unless there are none. -/
theorem class_specs_runtimeParcel {target : Target} {spec : ParcelSpec String}
    (hs : b.hierarchy.runtimeParcel p target = .ok spec) :
    List.Forall₂ (fun row s => ∃ c ∈ b.hierarchy.dynamicClassesOf p,
        c.runtimeSpec target = .ok s ∧ c.dataFragment <:+: b.parcelSource p ∧ c.Tabled row s)
      ((b.parcelSource p).rowsOf "class_specs") spec.classes ∧
    ((∃ a ∈ (b.parcelSource p).arrays, a.name = "class_specs") ↔ spec.classes ≠ []) ∧
    ∃ body, (b.parcelSource p).bodiesOf p.bootInheritanceName = [body] ∧
      body.filterMap Stmt.load? =
        ["cfish_Class_bootstrap(" ++ (if spec.classes = [] then "NULL" else "class_specs") ++ ", " ++
          toString spec.classes.length ++ ");"] := by
  have hclasses : List.Forall₂ (fun c s => c.runtimeSpec target = .ok s)
      (b.hierarchy.dynamicClassesOf p) spec.classes := by
    obtain ⟨classes, hmap, rfl⟩ := Runtime.runtimeParcel_eq_ok_iff.mp hs
    rw [Hierarchy.dynamicClassesOf_eq]
    exact mapM_eq_ok_iff.mp hmap
  have hlength := hclasses.length_eq
  have hnil : spec.classes = [] ↔ (b.hierarchy.dynamicClassesOf p).length = 0 := by
    rw [hlength, List.length_eq_zero_iff]
  refine ⟨?_, ?_, _, b.bodiesOf_bootInheritance p, ?_⟩
  · rw [rowsOf_class_specs, List.forall₂_map_left_iff]
    refine List.forall₂_iff_get.mpr ⟨hlength, fun i hi hi' => ?_⟩
    have hc := List.get_mem (b.hierarchy.dynamicClassesOf p) ⟨i, hi⟩
    have hspec := hclasses.get hi hi'
    obtain ⟨hmem, hinert⟩ := List.mem_filter.mp hc
    exact ⟨_, hc, hspec, dataFragment_infix hmem, Class.tabled (by simpa using hinert) hspec⟩
  · rw [class_specs_mem_iff, ne_eq, ne_eq, hnil, List.length_eq_zero_iff]
  · rw [Hierarchy.loads_inheritanceSteps, BootStep.classTable, ← hlength]
    simp only [hnil]

/-- The three classes of `Animal`: the source has a row for each, and loads three. -/
theorem kennel_class_specs : ∃ b : Bindings, ∃ p ∈ b.hierarchy.parcels, ∃ spec,
    b.hierarchy = kennelHierarchy ∧ p.name = "Animal" ∧
      b.hierarchy.runtimeParcel p .lp64 = .ok spec ∧
        spec.classes.map (·.name) = ["Animal", "Animal::Dog", "Animal::Cat"] ∧
          List.Forall₂ (fun row s => ∃ c ∈ b.hierarchy.dynamicClassesOf p,
              c.runtimeSpec .lp64 = .ok s ∧ c.dataFragment <:+: b.parcelSource p ∧ c.Tabled row s)
            ((b.parcelSource p).rowsOf "class_specs") spec.classes ∧
          ∃ body, (b.parcelSource p).bodiesOf p.bootInheritanceName = [body] ∧
            body.filterMap Stmt.load? = ["cfish_Class_bootstrap(class_specs, 3);"] := by
  have hfound : ∃ p ∈ kennelHierarchy.parcels, p.name = "Animal" ∧
      ((kennelHierarchy.runtimeParcel p .lp64).toOption.map fun spec =>
        spec.classes.map (·.name)) = some ["Animal", "Animal::Dog", "Animal::Cat"] := by
    decide +kernel
  obtain ⟨p, hp, hname, hspec⟩ := hfound
  cases hs : kennelHierarchy.runtimeParcel p .lp64 with
  | error e => simp [hs, Except.toOption] at hspec
  | ok spec =>
      have hnames : spec.classes.map (·.name) = ["Animal", "Animal::Dog", "Animal::Cat"] := by
        simpa [hs, Except.toOption] using hspec
      have hlength : spec.classes.length = 3 := by simpa using congrArg List.length hnames
      have hne : spec.classes ≠ [] := by
        rintro hnil
        simp [hnil] at hlength
      obtain ⟨hrows, -, body, hbody, hloads⟩ :=
        class_specs_runtimeParcel (b := { hierarchy := kennelHierarchy }) hs
      rw [if_neg hne, hlength] at hloads
      exact ⟨{ hierarchy := kennelHierarchy }, p, hp, spec, rfl, hname, hs, hnames, hrows, body,
        hbody, hloads⟩

end Bindings

end ClassTables
