import ClassTables.Proofs.ClassContents
import ClassTables.Proofs.DirectCalls
import ClassTables.Proofs.ParcelOrder
/-!
# Class variables and where they are introduced

The source of a parcel names variables that hold class objects: the rows of `class_specs` name those
of the classes and of their parents, and a stub for an abstract method names that of its class.  The
data of a class defines the variable, as its last item; no header declares one.

So what a name needs in front of it is the data of the class.  The table comes after all data, and
finds the variables of all classes of the parcel, but those of parents in other parcels are not
introduced.  A stub comes before the variable of its own class
(`class_variables_introduced`, `abstractShape_not_introduced`).
-/

namespace ClassTables

/-! ## Names that are introduced -/

/-- The name that is declared; a star in front belongs to the type. -/
def VarDecl.identifier (v : VarDecl) : String :=
  match v.name.toList with
  | '*' :: cs => String.ofList cs
  | _ => v.name

/-- Declares or defines a variable of this name, and not as an offset. -/
def VarDecl.Introduces (v : VarDecl) (name : String) : Prop :=
  v.type ≠ "size_t" ∧ v.identifier = name

instance (v : VarDecl) (name : String) : Decidable (v.Introduces name) :=
  inferInstanceAs (Decidable (_ ∧ _))

namespace Class

/-- The definition of the class object. -/
def classVarDef (c : Class) : VarDecl := { type := "cfish_Class", name := "*" ++ c.fullClassVar }

theorem classVarDef_introduces_iff {c : Class} {name : String} :
    c.classVarDef.Introduces name ↔ c.fullClassVar = name := by
  have hid : c.classVarDef.identifier = c.fullClassVar := by
    unfold VarDecl.identifier classVarDef
    simp
  have htype : c.classVarDef.type ≠ "size_t" := by
    show "cfish_Class" ≠ "size_t"
    decide
  unfold VarDecl.Introduces
  rw [hid, and_iff_right htype]

/-- The variable of the class is defined in what stands in front, or declared by the header of the
class. -/
def VarIntroduced (c : Class) (before : Fragment) : Prop :=
  (∃ v ∈ before.vars, v.Introduces c.fullClassVar) ∨
    ∃ v ∈ c.headerFragment.vars, v.Introduces c.fullClassVar

/-- The variable of the class is that of a class in the list, or an inert variable of the class goes
by the same name. -/
def VarAmong (c : Class) (l : List Class) : Prop :=
  (∃ c' ∈ l, c'.fullClassVar = c.fullClassVar) ∨
    ∃ v ∈ c.inertVarDecs.vars, v.Introduces c.fullClassVar

instance (c : Class) (l : List Class) : Decidable (c.VarAmong l) :=
  inferInstanceAs (Decidable (_ ∨ _))

variable {c : Class} {name : String}

/-- A header declares no variables but offsets and the inert variables of its class. -/
theorem exists_introducing_header_iff :
    (∃ v ∈ c.headerFragment.vars, v.Introduces name) ↔
      ∃ v ∈ c.inertVarDecs.vars, v.Introduces name := by
  rw [vars_headerFragment]
  split
  · rfl
  · constructor
    · rintro ⟨v, hv, hintro⟩
      simp only [List.cons_append, List.mem_cons, List.mem_append, List.mem_map] at hv
      rcases hv with rfl | hv | ⟨m, -, rfl⟩
      · exact absurd rfl hintro.1
      · exact ⟨v, hv, hintro⟩
      · exact absurd rfl hintro.1
    · rintro ⟨v, hv, hintro⟩
      exact ⟨v, by simp [hv], hintro⟩

/-- The class object comes last in the data of its class, and in front of it there are offsets
only. -/
theorem exists_dataFragment_eq (hinert : c.inert = false) :
    ∃ ahead, c.dataFragment = ahead ++
        titled "Define the pointer to the Class singleton object." [.var c.classVarDef] ∧
      ∀ v ∈ Fragment.vars ahead, v.type = "size_t" := by
  have hsplit : ∃ ahead, c.dataFragment = ahead ++
      titled "Define the pointer to the Class singleton object." [.var c.classVarDef] := by
    unfold dataFragment
    rw [if_neg (by simp [hinert])]
    exact ⟨_, rfl⟩
  obtain ⟨ahead, hsplit⟩ := hsplit
  refine ⟨ahead, hsplit, fun v hv => ?_⟩
  have hvars := c.vars_dataFragment hinert
  rw [hsplit, Fragment.vars, collect_append] at hvars
  have hoffsets : Fragment.vars ahead = _ := List.append_inj_left' hvars rfl
  rw [hoffsets, List.mem_cons, List.mem_map] at hv
  rcases hv with rfl | ⟨b, -, rfl⟩
  · rfl
  · rfl

theorem exists_introducing_class_iff :
    (∃ v ∈ c.dataFragment.vars, v.Introduces name) ↔ c.inert = false ∧ c.fullClassVar = name := by
  cases hinert : c.inert with
  | true => simp [dataFragment, hinert]
  | false =>
      obtain ⟨ahead, hsplit, hahead⟩ := exists_dataFragment_eq hinert
      have hlast : Fragment.vars
          (titled "Define the pointer to the Class singleton object." [.var c.classVarDef]) =
            [c.classVarDef] := rfl
      rw [hsplit, and_iff_right rfl, ← classVarDef_introduces_iff]
      simp only [collect_append, hlast]
      constructor
      · rintro ⟨v, hv, hintro⟩
        rcases List.mem_append.mp hv with hv | hv
        · exact absurd (hahead v hv) hintro.1
        · exact List.mem_singleton.mp hv ▸ hintro
      · intro hintro
        exact ⟨_, List.mem_append_right _ (List.mem_singleton_self _), hintro⟩

/-- **The data of classes introduces their class variables.** -/
theorem exists_introducing_data_iff {l : List Class} :
    (∃ v ∈ Fragment.vars (l.flatMap (·.dataFragment)), v.Introduces name) ↔
      ∃ c ∈ l.filter (!·.inert), c.fullClassVar = name := by
  rw [Fragment.vars, collect_flatMap]
  constructor
  · rintro ⟨v, hv, hintro⟩
    obtain ⟨c, hc, hv⟩ := List.mem_flatMap.mp hv
    obtain ⟨hinert, hname⟩ := exists_introducing_class_iff.mp ⟨v, hv, hintro⟩
    exact ⟨c, List.mem_filter.mpr ⟨hc, by simp [hinert]⟩, hname⟩
  · rintro ⟨c, hc, hname⟩
    obtain ⟨hc, hinert⟩ := List.mem_filter.mp hc
    rw [Bool.not_eq_true'] at hinert
    obtain ⟨v, hv, hintro⟩ := exists_introducing_class_iff.mpr ⟨hinert, hname⟩
    exact ⟨v, List.mem_flatMap.mpr ⟨c, hc, hv⟩, hintro⟩

/-- A variable is introduced where the data in front is that of a class with the same variable. -/
theorem varIntroduced_iff {before : Fragment} {l : List Class}
    (hbefore : (∃ v ∈ before.vars, v.Introduces c.fullClassVar) ↔
      ∃ c' ∈ l, c'.fullClassVar = c.fullClassVar) :
    c.VarIntroduced before ↔ c.VarAmong l := by
  unfold VarIntroduced VarAmong
  rw [hbefore, exists_introducing_header_iff]

end Class

/-! ## The table of the classes -/

namespace Bindings

variable {b : Bindings} {p : Parcel} {before after : Fragment}

/-- An array of the name of the table stands behind the data of all classes. -/
theorem exists_table_split {a : ArrayDef} (h : b.parcelSource p = before ++ .array a :: after)
    (hname : a.name = "class_specs") :
    ∃ x y, b.hierarchy.classTable p = x ++ .array a :: y ∧
      before = b.preamble p ++ ((b.hierarchy.classesOf p).flatMap (·.dataFragment) ++ x) := by
  have hpre : .array a ∉ b.preamble p :=
    not_mem_of_collect (b.collect_preamble p passes_array) rfl rfl
  have hdata : .array a ∉ (b.hierarchy.classesOf p).flatMap (·.dataFragment) := by
    intro hmem
    obtain ⟨c, -, hmem⟩ := List.mem_flatMap.mp hmem
    obtain ⟨-, k, -, rfl⟩ := c.mem_arrays_dataFragment.mp (mem_collect hmem rfl rfl)
    exact arrayName_ne_class_specs c k hname
  have hboot : .array a ∉ b.hierarchy.bootDefinitions p ++ b.frame.after := by
    have hnone : Fragment.arrays (b.hierarchy.bootDefinitions p ++ b.frame.after) = [] := by
      simp only [collect_append, collect_after passes_array.toPassesFrames]
      rfl
    exact not_mem_of_collect hnone rfl rfl
  rw [parcelSource_eq] at h
  obtain ⟨z, hrest, rfl⟩ := eq_append_cons_of_not_mem h hpre
  obtain ⟨x, htail, rfl⟩ := eq_append_cons_of_not_mem hrest hdata
  obtain ⟨y, htable, -⟩ := eq_append_cons_of_not_mem_right htail hboot
  exact ⟨x, y, htable, rfl⟩

/-- **The table of the classes finds the class variables of its parcel in front of it.** -/
theorem table_position {a : ArrayDef} (h : b.parcelSource p = before ++ .array a :: after)
    (hname : a.name = "class_specs") :
    a = b.hierarchy.classSpecs p ∧ ∀ name, (∃ v ∈ before.vars, v.Introduces name) ↔
      ∃ c ∈ b.hierarchy.dynamicClassesOf p, c.fullClassVar = name := by
  obtain ⟨x, y, htable, rfl⟩ := exists_table_split h hname
  constructor
  · have hread : a ∈ (b.hierarchy.classTable p).arrays :=
      mem_collect (htable ▸ List.mem_append_right _ List.mem_cons_self) rfl rfl
    rw [Hierarchy.classTable_eq] at hread
    split at hread
    · cases hread
    · exact List.mem_singleton.mp hread
  · intro name
    have hvars : Fragment.vars x = [] := by
      have hnone : (b.hierarchy.classTable p).vars = [] := by
        rw [Hierarchy.classTable_eq]
        split <;> rfl
      rw [htable] at hnone
      simp only [collect_append] at hnone
      exact (List.append_eq_nil_iff.mp hnone).1
    have hbefore : Fragment.vars (b.preamble p ++
        ((b.hierarchy.classesOf p).flatMap (·.dataFragment) ++ x)) =
          Fragment.vars ((b.hierarchy.classesOf p).flatMap (·.dataFragment)) := by
      simp only [collect_append, b.collect_preamble p passes_var, hvars, List.nil_append,
        List.append_nil]
    rw [hbefore]
    exact Class.exists_introducing_data_iff

theorem classSpecs_mem (hp : b.hierarchy.dynamicClassesOf p ≠ []) :
    .array (b.hierarchy.classSpecs p) ∈ b.parcelSource p := by
  rw [parcelSource_eq, Hierarchy.classTable_eq, if_neg hp]
  simp

/-- The source has a stub for each abstract method that a class of the parcel declares. -/
theorem abstractMethodDef_mem {c : Class} {m : Method} (hc : c ∈ b.hierarchy.dynamicClassesOf p)
    (hd : c.Distinct) (hm : m ∈ c.freshMethods) (habstract : m.isAbstract = true) :
    (⟨m, c⟩ : MethodBinding).abstractMethodDef ∈ b.parcelSource p := by
  obtain ⟨hmem, hinert⟩ := List.mem_filter.mp hc
  rw [Bool.not_eq_true'] at hinert
  have hdata : (⟨m, c⟩ : MethodBinding).abstractMethodDef ∈
      (b.hierarchy.classesOf p).flatMap (·.dataFragment) :=
    List.mem_flatMap.mpr ⟨c, hmem, Class.abstractMethodDef_mem hinert hd hm habstract⟩
  rw [parcelSource_eq]
  simp [hdata]

/-- Any other function than the two that bring the parcel up stands in the data of a class. -/
theorem exists_stub_split {f : FnHead} {body : List Stmt}
    (h : b.parcelSource p = before ++ .fnDef f body :: after)
    (hinherit : f.name ≠ p.bootInheritanceName) (hparcel : f.name ≠ p.bootParcelName) :
    ∃ x y, (b.hierarchy.classesOf p).flatMap (·.dataFragment) = x ++ .fnDef f body :: y ∧
      before = b.preamble p ++ x := by
  have hpre : .fnDef f body ∉ b.preamble p :=
    not_mem_of_collect (b.collect_preamble p passes_function) rfl rfl
  have hboot : .fnDef f body ∉
      b.hierarchy.classTable p ++ (b.hierarchy.bootDefinitions p ++ b.frame.after) := by
    intro hmem
    have hread : (f, body) ∈ Fragment.functions (b.hierarchy.classTable p ++
        (b.hierarchy.bootDefinitions p ++ b.frame.after)) := mem_collect hmem rfl rfl
    have htable : (b.hierarchy.classTable p).functions = [] := by
      rw [Hierarchy.classTable_eq]
      split <;> rfl
    have hfunctions : (b.hierarchy.bootDefinitions p).functions =
        [({ returns := "void", name := p.bootInheritanceName, params := "void" },
          (b.hierarchy.inheritanceSteps p).map BootStep.toStmt),
         ({ returns := "void", name := p.bootParcelName, params := "void" },
          (b.hierarchy.parcelSteps p).map BootStep.toStmt)] := rfl
    simp only [collect_append, collect_after passes_function.toPassesFrames, htable, hfunctions,
      List.nil_append, List.append_nil, List.mem_cons, List.not_mem_nil, or_false,
      Prod.mk.injEq] at hread
    rcases hread with ⟨rfl, -⟩ | ⟨rfl, -⟩
    · exact hinherit rfl
    · exact hparcel rfl
  rw [parcelSource_eq] at h
  obtain ⟨x, hrest, rfl⟩ := eq_append_cons_of_not_mem h hpre
  obtain ⟨y, hdata, -⟩ := eq_append_cons_of_not_mem_right hrest hboot
  exact ⟨x, y, hdata, rfl⟩

/-- **A stub finds the class variables of the classes before its own.** -/
theorem stub_position {f : FnHead} {body : List Stmt}
    (h : b.parcelSource p = before ++ .fnDef f body :: after)
    (hinherit : f.name ≠ p.bootInheritanceName) (hparcel : f.name ≠ p.bootParcelName) :
    ∃ front c back, b.hierarchy.dynamicClassesOf p = front ++ c :: back ∧
      (f, body) ∈ c.dataFragment.functions ∧
        ∀ name, (∃ v ∈ before.vars, v.Introduces name) ↔ ∃ c' ∈ front, c'.fullClassVar = name := by
  obtain ⟨x, y, hdata, rfl⟩ := exists_stub_split h hinherit hparcel
  obtain ⟨front, c, back, x', y', hclasses, hc, rfl⟩ := flatMap_eq_append_cons hdata
  have hinert : c.inert = false := by
    cases hinert : c.inert with
    | true => simp [Class.dataFragment, hinert] at hc
    | false => rfl
  refine ⟨front.filter (!·.inert), c, back.filter (!·.inert), ?_, ?_, fun name => ?_⟩
  · rw [Hierarchy.dynamicClassesOf, hclasses, List.filter_append, List.filter_cons_of_pos]
    simp [hinert]
  · exact mem_collect (hc ▸ List.mem_append_right _ List.mem_cons_self) rfl rfl
  · obtain ⟨ahead, hsplit, hahead⟩ := Class.exists_dataFragment_eq hinert
    have hlast : .fnDef f body ∉
        titled "Define the pointer to the Class singleton object." [.var c.classVarDef] := by
      simp [titled]
    obtain ⟨z, hz, -⟩ := eq_append_cons_of_not_mem_right (hsplit.symm.trans hc) hlast
    have hnone : ¬ ∃ v ∈ Fragment.vars x', v.Introduces name := by
      rintro ⟨v, hv, hintro⟩
      refine hintro.1 (hahead v ?_)
      rw [hz]
      simp only [collect_append]
      exact List.mem_append_left _ hv
    rw [← Class.exists_introducing_data_iff]
    simp only [collect_append, b.collect_preamble p passes_var, List.nil_append, List.mem_append,
      or_and_right, exists_or]
    exact or_iff_left hnone

end Bindings

/-! ## What is introduced -/

theorem ClassRow.field?_parent (r : ClassRow) :
    r.toInitializer.field? "parent" = some ((r.parentVar.map ("&" ++ ·)).getD "NULL") := by
  obtain ⟨_, _, parentVar, _, _, _, _, _⟩ := r
  cases parentVar <;> rfl

namespace Class

variable {c : Class} {m : Method}

/-- The row of a class names the variable of the parent. -/
theorem row_field?_parent (c : Class) : c.row.toInitializer.field? "parent" =
    some ((c.parent?.map ("&" ++ ·.fullClassVar)).getD "NULL") := by
  rw [ClassRow.field?_parent, row, Option.map_map]
  rfl

/-- The stub of a method that the class declares names the variable of the class. -/
theorem abstractCall_mem (hdeclarer : m.declarer = c.toClassHead) :
    .line ("cfish_Err_abstract_method_call((cfish_Obj*)self, " ++ c.fullClassVar ++ ", \"" ++
      m.name ++ "\");") ∈ (⟨m, c⟩ : MethodBinding).abstractBody := by
  have hvar : m.declarer.fullClassVar = c.fullClassVar := congrArg ClassHead.fullClassVar hdeclarer
  rw [← hvar]
  exact List.mem_append_right _ List.mem_cons_self

/-- The class that a stub stands in declares the method. -/
theorem declarer_of_needsStub (hd : c.Distinct) (hm : m ∈ c.methods)
    (hstub : (⟨m, c⟩ : MethodBinding).needsStub = true) : m.declarer = c.toClassHead := by
  obtain ⟨hkind, -⟩ := Bool.and_eq_true_iff.mp hstub
  obtain ⟨d, ds⟩ := c
  rcases (mem_methodList_cons (hd.methods d List.mem_cons_self)).mp hm with hfresh | ⟨habove, -⟩
  · exact ClassDef.declarer_of_mem_fresh hfresh
  · exact absurd (kindOf_of_mem_above hd habove) (bne_iff_ne.mp hkind)

theorem exists_stub_of_mem_functions (hd : c.Distinct) (hinert : c.inert = false)
    {f : FnHead} {body : List Stmt} (hf : (f, body) ∈ c.dataFragment.functions) :
    ∃ m ∈ c.methods, m.isAbstract = true ∧ m.declarer = c.toClassHead ∧
      f.name = m.impFunc ∧ .line ("cfish_Err_abstract_method_call((cfish_Obj*)self, " ++
        c.fullClassVar ++ ", \"" ++ m.name ++ "\");") ∈ body := by
  rw [c.functions_dataFragment hinert] at hf
  obtain ⟨s, hs, heq⟩ := List.mem_map.mp hf
  obtain ⟨rfl, rfl⟩ := Prod.mk.inj heq
  obtain ⟨hmem, hstub⟩ := List.mem_filter.mp hs
  obtain ⟨m, hm, rfl⟩ := List.mem_map.mp hmem
  have habstract := (Bool.and_eq_true_iff.mp hstub).2
  have hdeclarer := declarer_of_needsStub hd hm hstub
  exact ⟨m, hm, habstract, hdeclarer, rfl, abstractCall_mem hdeclarer⟩

end Class

/-- What the rows of classes and the stubs of a source name, and which of it is introduced. -/
structure Bindings.VarsIntroduced (b : Bindings) (p : Parcel) : Prop where
  /-- A row names the variable of its class, which is introduced.  It names that of the parent,
  which is introduced if the parent is in the same parcel, and otherwise by chance only. -/
  rows : ∀ before a after, b.parcelSource p = before ++ .array a :: after → a.name = "class_specs" →
    List.Forall₂ (fun row c =>
        row.field? "class" = some ("&" ++ c.fullClassVar) ∧ c.VarIntroduced before ∧
        row.field? "parent" = some ((c.parent?.map ("&" ++ ·.fullClassVar)).getD "NULL") ∧
        ∀ parent, c.parent? = some parent →
          (parent.VarIntroduced before ↔ parent.VarAmong (b.hierarchy.dynamicClassesOf p)) ∧
          (parent.parcel.name = p.name → parent.VarIntroduced before))
      a.rows (b.hierarchy.dynamicClassesOf p)
  /-- Any other function than the two that bring the parcel up is the stub of an abstract method.  It
  names the variable of its class, which is introduced if a class in front has the same variable, and
  otherwise by chance only. -/
  stubs : ∀ before f body after, b.parcelSource p = before ++ .fnDef f body :: after →
    f.name ≠ p.bootInheritanceName → f.name ≠ p.bootParcelName →
      ∃ front c back, b.hierarchy.dynamicClassesOf p = front ++ c :: back ∧
        (∃ m ∈ c.methods, m.isAbstract = true ∧ m.declarer = c.toClassHead ∧ f.name = m.impFunc ∧
          .line ("cfish_Err_abstract_method_call((cfish_Obj*)self, " ++ c.fullClassVar ++ ", \"" ++
            m.name ++ "\");") ∈ body) ∧
        (c.VarIntroduced before ↔ c.VarAmong front)

section Hierarchy

variable {d : Declarations} {b : Bindings} {p : Parcel} {before after : Fragment}

theorem mem_live_of_dynamic {h : Hierarchy} {c : Class} (hc : c ∈ h.dynamicClassesOf p) :
    c ∈ h.liveClasses := by
  rw [Hierarchy.dynamicClassesOf_eq, Hierarchy.mem_liveIn] at hc
  exact hc.1

/-- **Which class variables are introduced before they are named.** -/
theorem class_variables_introduced (hb : d.build = .ok b.hierarchy) (p : Parcel) :
    b.VarsIntroduced p := by
  constructor
  · intro before a after h hname
    obtain ⟨rfl, hbefore⟩ := Bindings.table_position h hname
    show List.Forall₂ _ ((b.hierarchy.dynamicClassesOf p).map (·.row.toInitializer)) _
    rw [List.forall₂_map_left_iff, List.forall₂_same]
    intro c hc
    have hiff : ∀ owner : Class, owner.VarIntroduced before ↔
        owner.VarAmong (b.hierarchy.dynamicClassesOf p) := fun owner =>
      Class.varIntroduced_iff (hbefore owner.fullClassVar)
    refine ⟨rfl, (hiff c).mpr (Or.inl ⟨c, hc, rfl⟩), c.row_field?_parent,
      fun parent hparent => ⟨hiff parent, fun hsame => ?_⟩⟩
    have hancestor : parent ∈ c :: c.ancestors :=
      List.mem_cons_of_mem _ (List.mem_of_mem_head? hparent)
    have hlive := self_or_ancestor_mem_liveClasses hb (mem_live_of_dynamic hc) hancestor
    have hmem : parent ∈ b.hierarchy.dynamicClassesOf p := by
      rw [Hierarchy.dynamicClassesOf_eq, Hierarchy.mem_liveIn]
      exact ⟨hlive, hsame⟩
    exact (hiff parent).mpr (Or.inl ⟨parent, hmem, rfl⟩)
  · intro before f body after h hinherit hparcel
    obtain ⟨front, c, back, hsplit, hf, hbefore⟩ := Bindings.stub_position h hinherit hparcel
    have hc : c ∈ b.hierarchy.dynamicClassesOf p := by simp [hsplit]
    have hlive := mem_live_of_dynamic hc
    have hd := (distinct_of_build hb (mem_classes_of_live hlive)).1
    exact ⟨front, c, back, hsplit,
      Class.exists_stub_of_mem_functions hd (not_inert_of_live hlive) hf,
      Class.varIntroduced_iff (hbefore c.fullClassVar)⟩

end Hierarchy

/-- The table of `Animal` has three rows, and the variables of the three classes are introduced. -/
theorem kennel_class_variables : ∃ b : Bindings, ∃ p ∈ b.hierarchy.parcels, p.name = "Animal" ∧
    kennel.build = .ok b.hierarchy ∧ b.VarsIntroduced p ∧
      ∃ before a after, b.parcelSource p = before ++ .array a :: after ∧ a.name = "class_specs" ∧
        a.rows.length = 3 ∧ ∀ c ∈ b.hierarchy.dynamicClassesOf p, c.VarIntroduced before := by
  have hfound : ∃ p ∈ kennelHierarchy.parcels, p.name = "Animal" ∧
      (kennelHierarchy.dynamicClassesOf p).length = 3 := by decide +kernel
  obtain ⟨p, hp, hname, hlength⟩ := hfound
  let b : Bindings := { hierarchy := kennelHierarchy }
  have hvars : b.VarsIntroduced p := class_variables_introduced kennel_build p
  have hne : b.hierarchy.dynamicClassesOf p ≠ [] := by
    apply List.ne_nil_of_length_pos
    show 0 < (kennelHierarchy.dynamicClassesOf p).length
    omega
  obtain ⟨before, after, hsplit⟩ := List.append_of_mem (Bindings.classSpecs_mem hne)
  have hrows := hvars.rows before _ after hsplit rfl
  refine ⟨b, p, hp, hname, kennel_build, hvars, before, _, after, hsplit, rfl,
    hrows.length_eq.trans hlength, fun c hc => ?_⟩
  obtain ⟨row, -, -, hintro, -⟩ := exists_mem_of_forall₂ hrows.flip hc
  exact hintro

/-- A class with an abstract method, and a parent in another parcel. -/
def abstractShape : Declarations :=
  { parcels := [{ name := "Base" }, { name := "App" }]
    classes :=
      [{ name := "Base::Root", parcel := "Base" },
       { name := "App::Shape", parcel := "App", parent := some "Base::Root",
         methods := [{ name := "Area", isAbstract := true }] }] }

/-- **Neither variable is introduced:** the stub of `Area` names `APP_SHAPE`, which is defined further
down only, and the row of `Shape` names `BASE_ROOT`, which nothing declares. -/
theorem abstractShape_not_introduced : ∃ b : Bindings, ∃ p ∈ b.hierarchy.parcels,
    abstractShape.build = .ok b.hierarchy ∧ p.name = "App" ∧
      ∃ c ∈ b.hierarchy.dynamicClassesOf p, ∃ parent, c.name = "App::Shape" ∧
        c.parent? = some parent ∧ c.fullClassVar = "APP_SHAPE" ∧ parent.fullClassVar = "BASE_ROOT" ∧
        (∃ before f body after, b.parcelSource p = before ++ .fnDef f body :: after ∧
          .line "cfish_Err_abstract_method_call((cfish_Obj*)self, APP_SHAPE, \"Area\");" ∈ body ∧
            ¬ c.VarIntroduced before) ∧
        ∃ before a after, b.parcelSource p = before ++ .array a :: after ∧ a.name = "class_specs" ∧
          (∃ row ∈ a.rows, row.field? "parent" = some "&BASE_ROOT") ∧
            ¬ parent.VarIntroduced before := by
  let h : Hierarchy := abstractShape.build.toOption.getD ⟨[], [], []⟩
  let b : Bindings := { hierarchy := h }
  have hb : abstractShape.build = .ok b.hierarchy := by decide +kernel
  have hfound : ∃ p ∈ b.hierarchy.parcels, p.name = "App" ∧
      ∃ c ∈ b.hierarchy.classes, b.hierarchy.dynamicClassesOf p = [c] ∧ c.name = "App::Shape" ∧
        c.fullClassVar = "APP_SHAPE" ∧ (∃ m ∈ c.freshMethods, m.isAbstract = true ∧ m.name = "Area") ∧
          ∃ parent ∈ b.hierarchy.classes, c.parent? = some parent ∧
            parent.fullClassVar = "BASE_ROOT" ∧ ¬ c.VarAmong [] ∧ ¬ parent.VarAmong [c] := by
    decide +kernel
  obtain ⟨p, hp, hpname, c, hc, hdynamic, hcname, hcvar, ⟨m, hm, habstract, hmname⟩, parent, -,
    hparent, hpvar, hown, hforeign⟩ := hfound
  have hd := (distinct_of_build hb hc).1
  have hmem : c ∈ b.hierarchy.dynamicClassesOf p := by simp [hdynamic]
  refine ⟨b, p, hp, hb, hpname, c, hmem, parent, hcname, hparent, hcvar, hpvar, ?_, ?_⟩
  · -- the stub, in the data of its class
    obtain ⟨before, after, hsplit⟩ :=
      List.append_of_mem (Bindings.abstractMethodDef_mem hmem hd hm habstract)
    refine ⟨before, _, _, after, hsplit, ?_, ?_⟩
    · have hcall := Class.abstractCall_mem (ClassDef.declarer_of_mem_fresh hm : m.declarer = _)
      rwa [hcvar, hmname] at hcall
    · obtain ⟨front, c', back, hfront, -, hbefore⟩ := Bindings.stub_position hsplit
        (append_ne_append (by decide) (by decide) _ _) (append_ne_append (by decide) (by decide) _ _)
      have hnil : front = [] := by
        rw [hdynamic] at hfront
        cases front with
        | nil => rfl
        | cons _ _ => simp at hfront
      rw [Class.varIntroduced_iff (hbefore c.fullClassVar), hnil]
      exact hown
  · -- the table of the classes
    have hne : b.hierarchy.dynamicClassesOf p ≠ [] := by simp [hdynamic]
    obtain ⟨before, after, hsplit⟩ := List.append_of_mem (Bindings.classSpecs_mem hne)
    refine ⟨before, _, after, hsplit, rfl, ⟨c.row.toInitializer, List.mem_map_of_mem hmem, ?_⟩, ?_⟩
    · rw [c.row_field?_parent, hparent, Option.map_some, hpvar]
      decide
    · obtain ⟨-, hbefore⟩ := Bindings.table_position hsplit rfl
      rw [Class.varIntroduced_iff (hbefore parent.fullClassVar), hdynamic]
      exact hforeign

end ClassTables
