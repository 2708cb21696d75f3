import ClassTables.Output.Basic
import ClassTables.Proofs.Contents
/-!
# What is generated for a class and for a parcel

The header of a class, its data and the source of a parcel are put together from sections.  Here
each of them is read as a whole: the variables, arrays and functions that it holds, in order, and no
others.
-/

namespace ClassTables

namespace Class

variable (c : Class)

/-! ## The data of a class -/

/-- The array for the methods of a kind. -/
def arrayDef (k : MethodKind) : ArrayDef :=
  { type := rowType k, name := c.arrayName k, rows := (c.bindingsOfKind k).map (rowOf · k),
    specifiers := "static const" }

theorem methodArray_eq (k : MethodKind) :
    c.methodArray k = if c.bindingsOfKind k = [] then [] else [.array (c.arrayDef k), .blank] := by
  unfold methodArray
  by_cases hk : c.bindingsOfKind k = []
  · simp [hk]
  · simp [hk, arrayDef]

/-- Arrays are all that the section of arrays holds. -/
theorem collect_methodArrays {α : Type} {read : Item → Option α}
    (harray : ∀ a, read (.array a) = none) (hblank : read .blank = none) :
    c.methodArrays.collect read = [] := by
  have hk : ∀ k, (c.methodArray k).collect read = [] := by
    intro k
    rw [methodArray_eq]
    split
    · rfl
    · simp [collect_cons, Item.leaves, harray, hblank]
  simp [methodArrays, hk]

theorem arrays_methodArray (k : MethodKind) :
    (c.methodArray k).arrays = if c.bindingsOfKind k = [] then [] else [c.arrayDef k] := by
  rw [methodArray_eq]
  split
  · rfl
  · simp [collect_cons, Item.leaves, Item.array?]

/-- **The variables of the data:** the offset of the members, that of each method, and the class
object. -/
theorem vars_dataFragment (h : c.inert = false) :
    c.dataFragment.vars = { type := "size_t", name := c.fullIvarsOffset } ::
      c.bindings.map (fun b => { type := "size_t", name := b.offsetSym }) ++
        [{ type := "cfish_Class", name := "*" ++ c.fullClassVar }] := by
  have hoffsets : c.offsetVars.vars =
      c.bindings.map fun b => { type := "size_t", name := b.offsetSym } :=
    collect_map _ fun _ => rfl
  have hstubs : c.abstractDefs.vars = [] := collect_flatMap_eq_nil _ fun _ => rfl
  have harrays : c.methodArrays.vars = [] := c.collect_methodArrays (fun _ => rfl) rfl
  simp [dataFragment, h, hoffsets, hstubs, harrays, collect_cons, Item.leaves, Item.var?]

/-- **The arrays of the data:** one for each kind of method that the class has. -/
theorem arrays_dataFragment (h : c.inert = false) :
    c.dataFragment.arrays = [MethodKind.novel, .overridden, .inherited].flatMap fun k =>
      if c.bindingsOfKind k = [] then [] else [c.arrayDef k] := by
  have hoffsets : c.offsetVars.arrays = [] := collect_map_eq_nil _ fun _ => rfl
  have hstubs : c.abstractDefs.arrays = [] := collect_flatMap_eq_nil _ fun _ => rfl
  simp [dataFragment, methodArrays, h, hoffsets, hstubs, arrays_methodArray, collect_cons,
    Item.leaves, List.filterMap_cons, Item.array?]

/-- **The functions of the data:** a stub for each abstract method that the class declares. -/
theorem functions_dataFragment (h : c.inert = false) :
    c.dataFragment.functions =
      (c.bindings.filter MethodBinding.needsStub).map fun b => (b.abstractHead, b.abstractBody) := by
  have hoffsets : c.offsetVars.functions = [] := collect_map_eq_nil _ fun _ => rfl
  have hstubs : c.abstractDefs.functions =
      (c.bindings.filter MethodBinding.needsStub).map fun b => (b.abstractHead, b.abstractBody) :=
    collect_flatMap_eq_map _ fun _ => rfl
  have harrays : c.methodArrays.functions = [] := c.collect_methodArrays (fun _ => rfl) rfl
  simp [dataFragment, h, hoffsets, hstubs, harrays, collect_cons, Item.leaves,
    List.filterMap_cons, Item.function?]

/-! ## Arrays by their names -/

theorem arrayName_injective {k k' : MethodKind} (h : c.arrayName k = c.arrayName k') : k = k' := by
  have hsuffix := (String.append_right_inj _).mp h
  cases k <;> cases k' <;> first | rfl | exact absurd hsuffix (by decide)

theorem mem_arrays_dataFragment {a : ArrayDef} :
    a ∈ c.dataFragment.arrays ↔
      c.inert = false ∧ ∃ k, c.bindingsOfKind k ≠ [] ∧ a = c.arrayDef k := by
  cases hinert : c.inert with
  | true => simp [dataFragment, hinert]
  | false =>
      rw [arrays_dataFragment c hinert, List.mem_flatMap]
      constructor
      · rintro ⟨k, -, ha⟩
        by_cases hk : c.bindingsOfKind k = []
        · simp [hk] at ha
        · exact ⟨rfl, k, hk, by simpa [hk] using ha⟩
      · rintro ⟨-, k, hk, rfl⟩
        exact ⟨k, by cases k <;> simp, by simp [hk]⟩

/-- The data has an array for the kinds of methods that the class has. -/
theorem exists_array_iff (h : c.inert = false) (k : MethodKind) :
    (∃ a ∈ c.dataFragment.arrays, a.name = c.arrayName k) ↔ c.bindingsOfKind k ≠ [] := by
  constructor
  · rintro ⟨a, ha, hname⟩
    obtain ⟨-, k', hk', rfl⟩ := c.mem_arrays_dataFragment.mp ha
    exact c.arrayName_injective hname ▸ hk'
  · intro hk
    exact ⟨c.arrayDef k, c.mem_arrays_dataFragment.mpr ⟨h, k, hk, rfl⟩, rfl⟩

/-- **The rows of an array:** one for each method of the kind, in slot order. -/
theorem rowsOf_dataFragment (h : c.inert = false) (k : MethodKind) :
    c.dataFragment.rowsOf (c.arrayName k) = (c.bindingsOfKind k).map (rowOf · k) := by
  have hrows : ∀ k', ((if c.bindingsOfKind k' = [] then [] else [c.arrayDef k']).filter
      (·.name == c.arrayName k)).flatMap (·.rows) =
        if k' = k then (c.bindingsOfKind k).map (rowOf · k) else [] := by
    intro k'
    by_cases hk : k' = k
    · subst hk
      by_cases hnil : c.bindingsOfKind k' = [] <;> simp [hnil, arrayDef]
    · have hname : (c.arrayName k' == c.arrayName k) = false :=
        beq_false_of_ne fun hname => hk (c.arrayName_injective hname)
      by_cases hnil : c.bindingsOfKind k' = [] <;> simp [hnil, arrayDef, hname, hk]
  rw [Fragment.rowsOf, arrays_dataFragment c h]
  simp only [List.flatMap_cons, List.flatMap_nil, List.filter_append, List.flatMap_append, hrows,
    List.append_nil]
  cases k <;> simp

/-! ## The header of a class -/

section Header

variable {α : Type} {read : Item → Option α}

theorem collect_subDeclarations (h : PassesFunctions read) : c.subDeclarations.collect read = [] := by
  have hdec : ∀ f : FnHead, Fragment.collect read [.fnDecl f, .blank] = [] := by
    intro f
    simp [collect_cons, Item.leaves, h.fnDecl, h.blank]
  unfold subDeclarations
  rw [collect_append, collect_flatMap_eq_nil _ fun f => hdec _,
    collect_flatMap_eq_nil _ fun b => hdec _]
  rfl

theorem collect_methodDefs (h : PassesFunctions read) : c.methodDefs.collect read =
    Fragment.collect read (c.bindings.map fun b => .var b.offsetDec) := by
  unfold methodDefs
  have hdef : ∀ b : MethodBinding, Fragment.collect read (b.methodDef ++ [.blank]) =
      Fragment.collect read [.var b.offsetDec] := by
    intro b
    unfold MethodBinding.methodDef
    split <;> simp [collect_cons, Item.leaves, h.define, h.fnDef, h.blank]
  rw [collect_flatMap, List.map_eq_flatMap, collect_flatMap]
  simp only [hdef]

theorem collect_overrideDecs (h : PassesFunctions read) :
    Fragment.collect read [c.overrideDecs] = [] := by
  unfold overrideDecs
  rw [collect_condElse, collect_map_eq_nil _ fun b => by simp [Item.leaves, h.define],
    collect_map_eq_nil _ fun b => by simp [Item.leaves, h.fnDecl]]
  rfl

theorem collect_shortNamesSection (h : PassesFunctions read) : c.shortNamesSection.collect read = [] := by
  unfold shortNamesSection shortNames
  rw [collect_titled h.toPassesFrames, collect_cond]
  exact collect_map_eq_nil _ fun a => by simp [Item.defineAs, Item.leaves, h.define]

/-- The sections of the header of a class with instances, one behind the other. -/
theorem collect_sections (h : PassesFrames read) : c.dynamicHeader.collect read =
    c.parentInclude.collect read ++ Fragment.collect read [c.layoutSection] ++
      c.inertVarDecs.collect read ++ c.subDeclarations.collect read ++ c.typedefDecs.collect read ++
        c.methodDefs.collect read ++ Fragment.collect read [c.overrideDecs] ++
          c.shortNamesSection.collect read := by
  unfold dynamicHeader
  simp only [collect_append, collect_titled h]

/-- What is read off such a header comes from the inclusion of the parent, from the layout of the
instances, and from the variables of the class and the offsets of its methods. -/
theorem collect_dynamicHeader (h : PassesFunctions read) : c.dynamicHeader.collect read =
    c.parentInclude.collect read ++ Fragment.collect read [c.layoutSection] ++
      c.inertVarDecs.collect read ++
        Fragment.collect read (c.bindings.map fun b => .var b.offsetDec) := by
  have htypes : c.typedefDecs.collect read = [] :=
    collect_flatMap_eq_nil _ fun b => by simp [collect_cons, Item.leaves, h.fnPointer, h.blank]
  rw [c.collect_sections h.toPassesFrames]
  simp only [c.collect_subDeclarations h, htypes, c.collect_methodDefs h, c.collect_overrideDecs h,
    c.collect_shortNamesSection h, List.append_nil]

theorem collect_layoutSection (h : PassesSymbols read) :
    Fragment.collect read [c.layoutSection] =
      Fragment.collect read
        [.var { type := "size_t", name := c.fullIvarsOffset, specifiers := "extern" }] := by
  have hstruct : c.structSection.collect read = [] := by
    unfold structSection
    split
    · rfl
    · simp [collect_cons, Item.leaves, h.blank, h.structDef]
  have hrest : Fragment.collect read
      [.typedefStruct c.structTag c.fullIvarsStruct, c.ivarsAccessor,
        .cond ⟨.ifDefined, c.shortNamesMacro, true, false⟩
          [.defineAs c.shortIvarsStruct c.fullIvarsStruct,
            .defineAs c.shortIvarsFunc c.fullIvarsFunc]] = [] := by
    simp [ivarsAccessor, collect_cons, Item.leaves, leavesOf, Item.defineAs, h.typedefStruct, h.fnDef,
      h.define]
  unfold layoutSection ivarsSection
  rw [collect_cond, collect_append, hstruct, List.append_nil, collect_cons, hrest, collect_cons]
  rfl

/-- What is read off the header comes from the inclusion of the parent and from variables: the offset
of the members, those of the class, and the offset of each method. -/
theorem collect_headerFragment (h : PassesSymbols read) : c.headerFragment.collect read =
    if c.inert then c.inertVarDecs.collect read
    else c.parentInclude.collect read ++
      Fragment.collect read
        [.var { type := "size_t", name := c.fullIvarsOffset, specifiers := "extern" }] ++
      c.inertVarDecs.collect read ++
      Fragment.collect read (c.bindings.map fun b => .var b.offsetDec) := by
  unfold headerFragment
  split
  · unfold inertHeader
    simp only [collect_append, collect_titled h.toPassesFrames,
      c.collect_subDeclarations h.toPassesFunctions,
      c.collect_shortNamesSection h.toPassesFunctions, List.append_nil]
  · rw [c.collect_dynamicHeader h.toPassesFunctions, c.collect_layoutSection h]

end Header

/-- **The variables of the header:** the offset of the members, the variables of the class, and the
offset of each method.  The header of an inert class has the second only. -/
theorem vars_headerFragment :
    c.headerFragment.vars =
      if c.inert then c.inertVarDecs.vars
      else { type := "size_t", name := c.fullIvarsOffset, specifiers := "extern" } ::
        c.inertVarDecs.vars ++ c.bindings.map (·.offsetDec) := by
  have hparent : c.parentInclude.collect Item.var? = [] := by
    unfold parentInclude
    split <;> rfl
  have hoffsets : Fragment.collect Item.var? (c.bindings.map fun b => .var b.offsetDec) =
      c.bindings.map (·.offsetDec) := collect_map _ fun _ => rfl
  refine (c.collect_headerFragment passesSymbols_var).trans ?_
  rw [hparent, hoffsets]
  rfl

end Class

/-! ## The source of a parcel -/

/-- Names that end differently are different. -/
theorem append_ne_append {s t : String} (hst : ¬ s.toList <:+ t.toList)
    (hts : ¬ t.toList <:+ s.toList) (a b : String) : a ++ s ≠ b ++ t := by
  intro h
  have hlist := congrArg String.toList h
  rw [String.toList_append, String.toList_append] at hlist
  have hsuffix : s.toList <:+ b.toList ++ t.toList := hlist ▸ List.suffix_append _ _
  rcases List.suffix_or_suffix_of_suffix hsuffix (List.suffix_append _ _) with h | h
  · exact hst h
  · exact hts h

namespace Hierarchy

/-- The table of the classes. -/
def classSpecs (h : Hierarchy) (p : Parcel) : ArrayDef :=
  { type := "cfish_ClassSpec", name := "class_specs",
    rows := (h.dynamicClassesOf p).map (·.row.toInitializer), specifiers := "static const" }

theorem classTable_eq (h : Hierarchy) (p : Parcel) :
    h.classTable p = if h.dynamicClassesOf p = [] then [] else
      [.comment "ClassSpec structs for initialization.", .blank, .array (h.classSpecs p), .blank] := by
  unfold classTable
  by_cases hp : h.dynamicClassesOf p = [] <;> simp [hp, classSpecs]

end Hierarchy

namespace Bindings

variable (b : Bindings) (p : Parcel)

/-- What stands in front of the data of the classes: comments, flags and inclusions. -/
def preamble (b : Bindings) (p : Parcel) : Fragment :=
  b.frame.before ++ (b.hierarchy.privacyFlags p ++ [.blank] ++ b.hierarchy.sourceIncludes p ++ [.blank])

theorem parcelSource_eq :
    b.parcelSource p = b.preamble p ++ ((b.hierarchy.classesOf p).flatMap (·.dataFragment) ++
      (b.hierarchy.classTable p ++ (b.hierarchy.bootDefinitions p ++ b.frame.after))) := by
  unfold parcelSource Frame.wrap Hierarchy.parcelSourceBody preamble
  simp only [List.append_assoc]

theorem collect_preamble {α : Type} {read : Item → Option α} (h : PassesDirectives read) :
    (b.preamble p).collect read = [] := by
  have hflags : (b.hierarchy.privacyFlags p).collect read = [] := by
    have hmap : Fragment.collect read
        ((b.hierarchy.classesOf p).map fun c => .flag c.privacySymbol) = [] :=
      collect_map_eq_nil _ fun c => by simp [Item.flag, Item.leaves, h.define]
    rw [Hierarchy.privacyFlags, collect_append, hmap]
    simp [collect_cons, Item.flag, Item.leaves, h.define]
  have hincludes : (b.hierarchy.sourceIncludes p).collect read = [] := by
    have hown : ∀ paths : List String, Fragment.collect read (paths.map .includeOwn) = [] :=
      fun paths => collect_map_eq_nil _ fun path => by
        simp [Item.includeOwn, Item.leaves, h.inclusion]
    simp [Hierarchy.sourceIncludes, hown, collect_cons, Item.includeSystem, Item.includeOwn,
      Item.leaves, h.inclusion, h.blank]
  have hseparator : Fragment.collect read [.blank] = [] := by
    simp [collect_cons, Item.leaves, h.blank]
  simp only [preamble, collect_append, collect_before h.toPassesFrames, hflags, hincludes,
    hseparator, List.nil_append]

/-- What is read off the source comes from the data of the classes, from the table of the classes
and from the bootstrap functions. -/
theorem collect_parcelSource {α : Type} {read : Item → Option α} (h : PassesDirectives read) :
    (b.parcelSource p).collect read =
      (b.hierarchy.classesOf p).flatMap (fun c => c.dataFragment.collect read) ++
        (b.hierarchy.classTable p).collect read ++ (b.hierarchy.bootDefinitions p).collect read := by
  rw [parcelSource_eq]
  simp only [collect_append, collect_flatMap, List.append_assoc, List.append_nil, List.nil_append,
    collect_preamble b p h, collect_after h.toPassesFrames]

/-- **The arrays of the source:** those of its classes, and the table of the classes. -/
theorem arrays_parcelSource :
    (b.parcelSource p).arrays =
      (b.hierarchy.classesOf p).flatMap (fun c => c.dataFragment.arrays) ++
        if b.hierarchy.dynamicClassesOf p = [] then [] else [b.hierarchy.classSpecs p] := by
  have htable : (b.hierarchy.classTable p).arrays =
      if b.hierarchy.dynamicClassesOf p = [] then [] else [b.hierarchy.classSpecs p] := by
    rw [Hierarchy.classTable_eq]
    split <;> rfl
  refine (b.collect_parcelSource p passes_array).trans ?_
  rw [← htable]
  exact List.append_nil _

/-- **The functions of the source:** the stubs of its classes, and the two that bring the parcel
up. -/
theorem functions_parcelSource :
    (b.parcelSource p).functions =
      (b.hierarchy.classesOf p).flatMap (fun c => c.dataFragment.functions) ++
        [({ returns := "void", name := p.bootInheritanceName, params := "void" },
          (b.hierarchy.inheritanceSteps p).map BootStep.toStmt),
         ({ returns := "void", name := p.bootParcelName, params := "void" },
          (b.hierarchy.parcelSteps p).map BootStep.toStmt)] := by
  have htable : (b.hierarchy.classTable p).functions = [] := by
    rw [Hierarchy.classTable_eq]
    split <;> rfl
  refine (b.collect_parcelSource p passes_function).trans ?_
  rw [List.append_assoc]
  exact congrArg (_ ++ ·) (congrArg (· ++ _) htable)

/-- No array of a class is taken for the table of the classes. -/
theorem arrayName_ne_class_specs (c : Class) (k : MethodKind) : c.arrayName k ≠ "class_specs" := by
  have hempty : "class_specs" = "" ++ "class_specs" := by decide
  rw [hempty]
  cases k <;> exact append_ne_append (by decide) (by decide) _ _

theorem class_specs_mem_iff :
    (∃ a ∈ (b.parcelSource p).arrays, a.name = "class_specs") ↔
      b.hierarchy.dynamicClassesOf p ≠ [] := by
  rw [arrays_parcelSource]
  constructor
  · rintro ⟨a, ha, hname⟩ hnil
    rw [if_pos hnil, List.append_nil] at ha
    obtain ⟨c, -, ha⟩ := List.mem_flatMap.mp ha
    obtain ⟨-, k, -, rfl⟩ := c.mem_arrays_dataFragment.mp ha
    exact arrayName_ne_class_specs c k hname
  · intro hp
    rw [if_neg hp]
    exact ⟨_, List.mem_append_right _ List.mem_cons_self, rfl⟩

/-- **The rows of `class_specs`:** one for each class that has instances, in order. -/
theorem rowsOf_class_specs :
    (b.parcelSource p).rowsOf "class_specs" =
      (b.hierarchy.dynamicClassesOf p).map (·.row.toInitializer) := by
  have hdata : ((b.hierarchy.classesOf p).flatMap fun c => c.dataFragment.arrays).filter
      (·.name == "class_specs") = [] := by
    rw [List.filter_eq_nil_iff]
    intro a ha hname
    obtain ⟨c, -, ha⟩ := List.mem_flatMap.mp ha
    obtain ⟨-, k, -, rfl⟩ := c.mem_arrays_dataFragment.mp ha
    exact arrayName_ne_class_specs c k (beq_iff_eq.mp hname)
  rw [Fragment.rowsOf, arrays_parcelSource, List.filter_append, hdata, List.nil_append]
  by_cases hp : b.hierarchy.dynamicClassesOf p = [] <;> simp [hp, Hierarchy.classSpecs]

/-- **The source defines `bootstrap_inheritance` once.** -/
theorem bodiesOf_bootInheritance :
    (b.parcelSource p).bodiesOf p.bootInheritanceName =
      [(b.hierarchy.inheritanceSteps p).map BootStep.toStmt] := by
  have hstubs : ((b.hierarchy.classesOf p).flatMap fun c => c.dataFragment.functions).filter
      (·.1.name == p.bootInheritanceName) = [] := by
    rw [List.filter_eq_nil_iff]
    intro f hf hname
    obtain ⟨c, -, hf⟩ := List.mem_flatMap.mp hf
    cases hinert : c.inert with
    | true => simp [Class.dataFragment, hinert] at hf
    | false =>
        rw [c.functions_dataFragment hinert] at hf
        obtain ⟨m, -, rfl⟩ := List.mem_map.mp hf
        exact append_ne_append (by decide) (by decide) _ _ (beq_iff_eq.mp hname)
  have hparcel : (p.bootParcelName == p.bootInheritanceName) = false :=
    beq_false_of_ne (append_ne_append (by decide) (by decide) _ _)
  rw [Fragment.bodiesOf, functions_parcelSource, List.filter_append, hstubs, List.nil_append]
  simp [hparcel]

end Bindings

end ClassTables
