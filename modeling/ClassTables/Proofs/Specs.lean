import ClassTables.Binding.Spec
import ClassTables.Proofs.Build
import ClassTables.Proofs.Tables
/-!
# The specification of a class fits the table of its parent

A specification tells novel, overridden and inherited methods apart by what kind of entry they are
in the flattened list of the class.  Here: the kinds are what their names say, and
a registry that holds the parent's list as a table makes the class's list of the specification
(`Class.specOf_table`).
-/

namespace ClassTables

/-- What the slot of an entry holds. -/
def Method.slot (m : Method) : Slot String :=
  if m.isAbstract then .abstract else .implemented m.impFunc

/-- The slot of an entry, named. -/
def Method.namedSlot (m : Method) : NamedSlot String := ⟨m.name, m.slot⟩

/-- The method list of a class as a table. -/
def Class.table (c : Class) : List (NamedSlot String) := c.methods.map Method.namedSlot

/-- Names on the lineage of a class are distinct, and no class on it declares a method twice. -/
structure Class.Distinct (c : Class) : Prop where
  names : (c.lineage.map fun d : ClassDef => d.name).Nodup
  methods : MethodsDistinct c.lineage

theorem Resolved.distinct {parcels : List Parcel} {defs : List ClassDef}
    (h : Resolved parcels defs) {c : Class} (hc : c ∈ preorder defs) : c.Distinct := by
  have hl := (mem_preorder_iff h.names).mp hc
  refine ⟨hl.nodup_names h.names, fun d hd => ?_⟩
  obtain ⟨above, hlin⟩ := h.lineage d (hl.mem d hd)
  exact (Class.check_eq_ok_iff.mp (h.check ⟨d, above⟩ ((mem_preorder_iff h.names).mpr hlin))).2.1

/-! ## Kinds of entries -/

section Kinds

variable {d : ClassDef} {ds : List ClassDef} {m : Method}

/-- What is inherited was declared by a class of another name. -/
theorem kindOf_of_mem_above (h : (⟨d, ds⟩ : Class).Distinct) (hm : m ∈ methodList ds) :
    (⟨d, ds⟩ : Class).kindOf m = .inherited := by
  obtain ⟨e, he, heq⟩ := declarer_of_mem_methodList h.methods.tail hm
  have hnames := h.names
  rw [Class.lineage_mk, List.map_cons, List.nodup_cons] at hnames
  have hne : (m.declarer.name == d.name) = false := by
    rw [beq_eq_false_iff_ne, heq]
    exact fun h => hnames.1 (h ▸ List.mem_map_of_mem he)
  rw [Class.kindOf, Method.kindFor, Method.isFreshIn, hne]
  rfl

theorem kindOf_of_mem_fresh (hm : m ∈ d.fresh (methodList ds)) :
    (⟨d, ds⟩ : Class).kindOf m = if m.isNovel then .novel else .overridden := by
  rw [Class.kindOf, Method.kindFor, Method.isFreshIn, ClassDef.declarer_of_mem_fresh hm,
    beq_self_eq_true]
  rfl

/-- The overridden entries are those declared here under an inherited name. -/
theorem mem_overridden_iff (h : (⟨d, ds⟩ : Class).Distinct) :
    m ∈ (⟨d, ds⟩ : Class).methods.filter ((⟨d, ds⟩ : Class).kindOf · == .overridden) ↔
      m ∈ d.fresh (methodList ds) ∧ m.name ∈ (methodList ds).map (·.name) := by
  rw [List.mem_filter, Class.methods, Class.lineage_mk,
    mem_methodList_cons (h.methods d List.mem_cons_self)]
  constructor
  · rintro ⟨hm | ⟨hm, _⟩, hk⟩
    · refine ⟨hm, ?_⟩
      rw [kindOf_of_mem_fresh hm] at hk
      have hnovel : ¬ m.isNovel = true := fun hn => by simp [hn] at hk
      rwa [ClassDef.isNovel_of_mem_fresh hm, not_not] at hnovel
    · rw [kindOf_of_mem_above h hm] at hk
      cases hk
  · rintro ⟨hm, hname⟩
    refine ⟨Or.inl hm, ?_⟩
    have hnovel : ¬ m.isNovel = true := by rwa [ClassDef.isNovel_of_mem_fresh hm, not_not]
    rw [kindOf_of_mem_fresh hm, if_neg hnovel]
    rfl

/-- The inherited entries are those of the parent that are not declared here. -/
theorem mem_inherited_iff (h : (⟨d, ds⟩ : Class).Distinct) :
    m ∈ (⟨d, ds⟩ : Class).methods.filter ((⟨d, ds⟩ : Class).kindOf · == .inherited) ↔
      m ∈ methodList ds ∧ m.name ∉ (d.fresh (methodList ds)).map (·.name) := by
  rw [List.mem_filter, Class.methods, Class.lineage_mk,
    mem_methodList_cons (h.methods d List.mem_cons_self)]
  constructor
  · rintro ⟨hm | hm, hk⟩
    · rw [kindOf_of_mem_fresh hm] at hk
      cases hnovel : m.isNovel <;> simp [hnovel] at hk
    · exact hm
  · rintro hm
    exact ⟨Or.inr hm, by rw [kindOf_of_mem_above h hm.1]; rfl⟩

/-- The novel entries come last, in declaration order. -/
theorem filter_novel (h : (⟨d, ds⟩ : Class).Distinct) :
    (⟨d, ds⟩ : Class).methods.filter ((⟨d, ds⟩ : Class).kindOf · == .novel) =
      (d.fresh (methodList ds)).filter (·.isNovel) := by
  rw [Class.methods, Class.lineage_mk, methodList_cons (h.methods d List.mem_cons_self),
    List.filter_append]
  have hold : ((methodList ds).map (redeclared (d.fresh (methodList ds)))).filter
      ((⟨d, ds⟩ : Class).kindOf · == .novel) = [] := by
    rw [List.filter_eq_nil_iff]
    intro m hm
    obtain ⟨old, hold, rfl⟩ := List.mem_map.mp hm
    cases hfind : (d.fresh (methodList ds)).find? (·.name == old.name) with
    | none =>
        rw [redeclared, hfind, Option.getD_none, kindOf_of_mem_above h hold]
        decide
    | some f =>
        have hf := List.mem_of_find?_eq_some hfind
        have hname : f.name = old.name := by simpa using List.find?_some hfind
        have hnovel : ¬ f.isNovel = true := by
          rw [ClassDef.isNovel_of_mem_fresh hf, not_not, hname]
          exact List.mem_map_of_mem hold
        rw [redeclared, hfind, Option.getD_some, kindOf_of_mem_fresh hf, if_neg hnovel]
        decide
  rw [hold, List.nil_append, List.filter_filter]
  refine List.filter_congr fun m hm => ?_
  rw [kindOf_of_mem_fresh hm]
  cases m.isNovel <;> rfl

end Kinds

/-! ## The specification -/

/-- The specification of a class whose block of members has the given layout. -/
def Class.specOf (c : Class) (layout : IvarsLayout) : ClassSpec String :=
  { name := c.name
    parcel := c.parcel.name
    parent := c.parent?.map (·.name)
    ivarsSize := layout.size
    ivarsAlign := max layout.align 1
    novel := (c.methods.filter (c.kindOf · == .novel)).map Method.namedSlot
    overridden := (c.methods.filter (c.kindOf · == .overridden)).map Method.namedSlot
    inherited := (c.methods.filter (c.kindOf · == .inherited)).map (·.name) }

theorem Class.bindingsOfKind_eq (c : Class) (k : MethodKind) :
    c.bindingsOfKind k = (c.methods.filter (c.kindOf · == k)).map (⟨·, c⟩) := by
  rw [Class.bindingsOfKind, Class.bindings, List.filter_map]
  rfl

theorem Class.specWith_eq (c : Class) (layout : IvarsLayout) :
    c.specWith layout = c.specOf layout := by
  rw [Class.specWith]
  simp only [Class.bindingsOfKind_eq, List.map_map]
  rfl

theorem Class.runtimeSpec_eq_ok_iff {c : Class} {target : Target} {spec : ClassSpec String} :
    c.runtimeSpec target = .ok spec ↔
      ∃ layout, c.ivarsLayout target = .ok layout ∧ spec = c.specOf layout := by
  rw [Class.runtimeSpec, map_eq_ok_iff]
  simp only [c.specWith_eq, eq_comm (b := spec)]

theorem namedSlot_names (l : List Method) :
    (l.map Method.namedSlot).map (fun s : NamedSlot String => s.name) = l.map (·.name) := by
  rw [List.map_map]
  rfl

section Table

variable {d : ClassDef} {ds : List ClassDef}

/-- What stands in a slot of the parent after the class has declared its methods is what its
specification puts there. -/
theorem namedSlot_redeclared (h : (⟨d, ds⟩ : Class).Distinct) {old : Method}
    (hold : old ∈ methodList ds) :
    (redeclared (d.fresh (methodList ds)) old).namedSlot =
      overriding (((⟨d, ds⟩ : Class).methods.filter
        ((⟨d, ds⟩ : Class).kindOf · == .overridden)).map Method.namedSlot) old.namedSlot := by
  have hd := h.methods d List.mem_cons_self
  cases hfind : (d.fresh (methodList ds)).find? (·.name == old.name) with
  | some f =>
      obtain ⟨hf, hname⟩ := (find?_key_eq_some_iff (d.fresh_nodup _ hd)).mp hfind
      have hmem := (mem_overridden_iff h).mpr ⟨hf, hname ▸ List.mem_map_of_mem hold⟩
      have hslot : f.namedSlot.name = old.namedSlot.name := hname
      have hnd : (((⟨d, ds⟩ : Class).methods.filter
          ((⟨d, ds⟩ : Class).kindOf · == .overridden)).map (·.name)).Nodup :=
        (methodList_names_nodup h.methods).sublist (List.filter_sublist.map _)
      rw [redeclared, hfind, Option.getD_some]
      exact (overriding_of_mem (by rwa [namedSlot_names]) (List.mem_map_of_mem hmem) hslot).symm
  | none =>
      rw [redeclared, hfind, Option.getD_none, overriding_of_not_mem]
      rw [namedSlot_names]
      intro hmem
      obtain ⟨f, hf, hname⟩ := List.mem_map.mp hmem
      have hfresh := ((mem_overridden_iff h).mp hf).1
      exact (find?_key_eq_none_iff.mp hfind) (List.mem_map.mpr ⟨f, hfresh, hname⟩)

/-- Every method of the parent is listed, as inherited or as overridden. -/
theorem inherited_or_overridden (h : (⟨d, ds⟩ : Class).Distinct) {old : Method}
    (hold : old ∈ methodList ds) :
    old.name ∈ ((⟨d, ds⟩ : Class).methods.filter
        ((⟨d, ds⟩ : Class).kindOf · == .inherited)).map (·.name) ∨
      old.name ∈ ((⟨d, ds⟩ : Class).methods.filter
        ((⟨d, ds⟩ : Class).kindOf · == .overridden)).map (·.name) := by
  by_cases hname : old.name ∈ (d.fresh (methodList ds)).map (·.name)
  · obtain ⟨f, hf, hfn⟩ := List.mem_map.mp hname
    refine Or.inr (List.mem_map.mpr ⟨f, (mem_overridden_iff h).mpr ⟨hf, ?_⟩, hfn⟩)
    exact hfn ▸ List.mem_map_of_mem hold
  · exact Or.inl (List.mem_map_of_mem ((mem_inherited_iff h).mpr ⟨hold, hname⟩))

end Table

/-- **The specification of a class turns the parent's table into the table of the class.** -/
theorem Class.specOf_table {c : Class} (h : c.Distinct) (layout : IvarsLayout) :
    (c.specOf layout).table ((methodList c.above).map Method.namedSlot) = .ok c.table := by
  obtain ⟨d, ds⟩ := c
  have hd := h.methods d List.mem_cons_self
  rw [ClassSpec.table_eq_ok_iff]
  simp only [Class.specOf, namedSlot_names]
  refine ⟨?_, ?_, ?_, ?_, ?_⟩
  · -- what is listed as inherited is the parent's
    intro n hn
    obtain ⟨m, hm, rfl⟩ := List.mem_map.mp hn
    exact List.mem_map_of_mem ((mem_inherited_iff h).mp hm).1
  · -- and so is what is listed as overridden
    intro s hs
    obtain ⟨m, hm, rfl⟩ := List.mem_map.mp hs
    exact ((mem_overridden_iff h).mp hm).2
  · intro s hs
    obtain ⟨old, hold, rfl⟩ := List.mem_map.mp hs
    exact inherited_or_overridden h hold
  · -- novel methods have new names
    rw [filter_novel h, FreshNames, namedSlot_names]
    refine ⟨?_, (d.fresh_nodup _ hd).sublist (List.filter_sublist.map _)⟩
    intro s hs
    obtain ⟨m, hm, rfl⟩ := List.mem_map.mp hs
    obtain ⟨hm, hnovel⟩ := List.mem_filter.mp hm
    exact (ClassDef.isNovel_of_mem_fresh hm).mp hnovel
  · -- slot by slot, exchanging the redeclared methods is overriding
    have htable : (⟨d, ds⟩ : Class).table =
        ((methodList ds).map (redeclared (d.fresh (methodList ds)))).map Method.namedSlot ++
          ((d.fresh (methodList ds)).filter (·.isNovel)).map Method.namedSlot := by
      rw [Class.table, Class.methods, Class.lineage_mk, methodList_cons hd, List.map_append]
    rw [htable, filter_novel h, List.map_map, List.map_map]
    congr 1
    refine List.map_congr_left fun old hold => ?_
    exact namedSlot_redeclared h hold

end ClassTables
