import ClassTables.Proofs.FlattenedMethods
import ClassTables.Proofs.WellFormed
/-!
# What inert classes hold

An inert class has no instances, so it should have no members and no methods.  The builder sees to
it that such a class declares none, and that it is nobody's parent.  But the class may have a parent
itself, and then its lists are those of the parent (`inert_holds_inherited`): they are empty only if
no ancestor declares anything (`heirloom_not_empty`).
-/

namespace ClassTables

/-! ## Empty lists -/

/-- What is said of the declarations of all classes on a lineage. -/
theorem forall_mem_ofLineage_iff {P : ClassDef → Prop} : ∀ {l : List ClassDef},
    (∀ a ∈ Class.ofLineage l, P a.toClassDef) ↔ ∀ d ∈ l, P d
  | [] => by simp [Class.ofLineage]
  | d :: ds => by
      rw [Class.ofLineage, List.forall_mem_cons, List.forall_mem_cons, forall_mem_ofLineage_iff]

theorem memberList_eq_nil_iff {l : List ClassDef} :
    memberList l = [] ↔ ∀ a ∈ Class.ofLineage l, a.ownMembers = [] := by
  rw [memberList_eq_flatMap, List.flatMap_eq_nil_iff,
    forall_mem_ofLineage_iff (P := fun d => d.ownMembers = [])]
  simp

theorem methodList_eq_nil_iff {l : List ClassDef} (h : MethodsDistinct l) :
    methodList l = [] ↔ ∀ a ∈ Class.ofLineage l, a.ownMethods = [] := by
  have hnames : methodList l = [] ↔ ∀ n, n ∉ (methodList l).map (·.name) := by
    rw [← List.eq_nil_iff_forall_not_mem, List.map_eq_nil_iff]
  rw [hnames]
  simp only [mem_methodList_names_iff h, not_exists, not_and]
  constructor
  · intro hnone a ha
    rw [← List.map_eq_nil_iff (f := (·.name)), List.eq_nil_iff_forall_not_mem]
    exact fun n => hnone n a ha
  · intro hnone n a ha hn
    rw [Class.declaredNames, hnone a ha] at hn
    cases hn

/-! ## A class that declares nothing -/

namespace Class

/-- The members of the parent; none, for a class without one. -/
def parentMembers (c : Class) : List Variable := (c.parent?.map (·.members)).getD []

theorem parentMembers_eq (c : Class) : c.parentMembers = memberList c.above := by
  unfold parentMembers
  cases hp : c.parent? with
  | none =>
      rw [above_of_parent?_none hp]
      rfl
  | some p =>
      rw [parent?_eq_some_iff.mp hp]
      rfl

/-- What is in the lists of a class without declarations comes from the parent. -/
structure HoldsInherited (c : Class) : Prop where
  members : c.members = c.parentMembers
  methods : c.methods = c.parentMethods
  noMembers : c.members = [] ↔ ∀ a ∈ c.ancestors, a.ownMembers = []
  noMethods : c.methods = [] ↔ ∀ a ∈ c.ancestors, a.ownMethods = []

theorem Distinct.holdsInherited {c : Class} (hd : c.Distinct) (hmembers : c.ownMembers = [])
    (hmethods : c.ownMethods = []) : c.HoldsInherited := by
  have hmem : c.members = memberList c.above := by
    show memberList c.above ++ c.ownMembers = _
    rw [hmembers, List.append_nil]
  have hmeth : c.methods = methodList c.above := by
    show (c.fresh (methodList c.above)).foldl install (methodList c.above) = _
    rw [ClassDef.fresh, hmethods]
    rfl
  refine ⟨hmem.trans c.parentMembers_eq.symm, hmeth.trans c.parentMethods_eq.symm, ?_, ?_⟩
  · rw [hmem]
    exact memberList_eq_nil_iff
  · rw [hmeth]
    exact methodList_eq_nil_iff hd.methods.tail

end Class

/-! ## Hierarchies -/

/-- **An inert class holds what its parent holds, and is nobody's parent.**  So its lists are empty
exactly if none of its ancestors declares a member or a method. -/
theorem inert_holds_inherited {d : Declarations} {h : Hierarchy} (hb : d.build = .ok h) {c : Class}
    (hc : c ∈ h.classes) (hinert : c.inert = true) :
    c.HoldsInherited ∧ ∀ e ∈ h.classes, e.parent? ≠ some c := by
  have hd := (distinct_of_build hb hc).1
  obtain ⟨defs, hres, hclasses, -⟩ := exists_resolved_of_build hb
  rw [hclasses] at hc ⊢
  obtain ⟨hmembers, hmethods⟩ := hres.inertEmpty _ ((mem_preorder_iff hres.names).mp hc).mem_of_head
    hinert
  refine ⟨hd.holdsInherited hmembers hmethods, fun e he hparent => ?_⟩
  have hlive := hres.parent?_not_inert he hparent
  rw [hinert] at hlive
  cases hlive

/-- An inert class below one with instances, and one without a parent. -/
def heirloom : Declarations :=
  { parcels := [{ name := "Zoo" }]
    classes :=
      [{ name := "Zoo::Animal", parcel := "Zoo", members := [⟨"legs", "int32_t"⟩],
         methods := [{ name := "Speak" }] },
       { name := "Zoo::Sounds", parcel := "Zoo", parent := some "Zoo::Animal", inert := true },
       { name := "Zoo::Registry", parcel := "Zoo", inert := true }] }

/-- `Sounds` holds what `Animal` holds, and nothing is below it. -/
theorem heirloom_holds_inherited : ∃ h, heirloom.build = .ok h ∧ ∃ c ∈ h.classes,
    c.name = "Zoo::Sounds" ∧ c.inert = true ∧ c.HoldsInherited ∧
      ∀ e ∈ h.classes, e.parent? ≠ some c := by
  let h : Hierarchy := heirloom.build.toOption.getD ⟨[], [], []⟩
  have hb : heirloom.build = .ok h := by decide +kernel
  have hfound : ∃ c ∈ h.classes, c.name = "Zoo::Sounds" ∧ c.inert = true := by decide +kernel
  obtain ⟨c, hc, hname, hinert⟩ := hfound
  exact ⟨h, hb, c, hc, hname, hinert, inert_holds_inherited hb hc hinert⟩

/-- **An inert class with a member and a method:** `Sounds` declares neither, and holds both. -/
theorem heirloom_not_empty : ∃ h, heirloom.build = .ok h ∧ ∃ c ∈ h.classes,
    c.name = "Zoo::Sounds" ∧ c.inert = true ∧ c.members.map (·.name) = ["legs"] ∧
      c.methods.map (·.name) = ["Speak"] ∧ ¬ (c.members = [] ∧ c.methods = []) := by
  let h : Hierarchy := heirloom.build.toOption.getD ⟨[], [], []⟩
  have hb : heirloom.build = .ok h := by decide +kernel
  have hfound : ∃ c ∈ h.classes, c.name = "Zoo::Sounds" ∧ c.inert = true ∧
      c.members.map (·.name) = ["legs"] ∧ c.methods.map (·.name) = ["Speak"] := by decide +kernel
  obtain ⟨c, hc, hname, hinert, hmembers, hmethods⟩ := hfound
  refine ⟨h, hb, c, hc, hname, hinert, hmembers, hmethods, fun ⟨hnil, _⟩ => ?_⟩
  rw [hnil] at hmembers
  cases hmembers

end ClassTables
