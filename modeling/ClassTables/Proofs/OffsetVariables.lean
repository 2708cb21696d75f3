import ClassTables.Proofs.ClassContents
import ClassTables.Proofs.DirectCalls
/-!
# Offset variables link up

Every entry of a method list has a variable for its offset.  The header of the class declares it, the
data of the class defines it, and the rows of the class refer to it.  A row for what is not new
refers to the variable of the parent besides, by a name made from the parent's symbols.  That the
parent has a variable of this name is due to the method lists: what a class does not introduce is in
the list of its parent (`Class.exists_parent_method`).

Main statement: `offsets_link`.
-/

namespace ClassTables

/-! ## One variable for each entry -/

/-- Symbols of one class for methods of different names are different. -/
theorem Method.fullOffsetSym_inj {c : ClassHead} {m m' : Method} :
    m.fullOffsetSym c = m'.fullOffsetSym c ↔ m.name = m'.name := by
  unfold fullOffsetSym fullMethodSym shortMethodSym ClassHead.shortSym
  rw [String.append_left_inj, String.append_right_inj, String.append_right_inj]

theorem address_ne_null (v : String) : "&" ++ v ≠ "NULL" := by
  intro h
  have hlist := congrArg String.toList h
  rw [String.toList_append] at hlist
  cases hlist

namespace Class

/-- The variables for the offsets of the methods, one for each entry of the method list. -/
def offsetSyms (c : Class) : List String := c.methods.map fun m => m.fullOffsetSym c.toClassHead

theorem offsetSyms_nodup {c : Class} (hd : c.Distinct) : c.offsetSyms.Nodup := by
  have hnames : (c.methods.map (·.name)).Nodup := methodList_names_nodup hd.methods
  refine List.Nodup.map_on ?_ hnames.of_map
  intro m hm m' hm' hsym
  exact List.inj_on_of_nodup_map hnames hm hm' (Method.fullOffsetSym_inj.mp hsym)

/-- What is said of each binding by its variable is said of each variable. -/
theorem map_bindings {α : Type} {c : Class} {g : MethodBinding → α} {f : String → α}
    (h : ∀ m, g ⟨m, c⟩ = f (m.fullOffsetSym c.toClassHead)) :
    c.bindings.map g = c.offsetSyms.map f := by
  rw [bindings, offsetSyms, List.map_map, List.map_map]
  exact List.map_congr_left fun m _ => h m

/-- Every method is of one of the three kinds. -/
theorem bindingsOfKind_perm (c : Class) :
    ([MethodKind.novel, .overridden, .inherited].flatMap c.bindingsOfKind).Perm c.bindings := by
  have hnovel := List.filter_append_perm (fun b : MethodBinding => b.kind == .novel) c.bindings
  have hrest := List.filter_append_perm (fun b : MethodBinding => b.kind == .overridden)
    (c.bindings.filter fun b => !(b.kind == .novel))
  have hover : ∀ b : MethodBinding, (b.kind == .overridden && !(b.kind == .novel)) =
      (b.kind == .overridden) := by
    intro b
    cases b.kind <;> rfl
  have hinherited : ∀ b : MethodBinding, (!(b.kind == .overridden) && !(b.kind == .novel)) =
      (b.kind == .inherited) := by
    intro b
    cases b.kind <;> rfl
  simp only [List.filter_filter, hover, hinherited] at hrest
  have hall : [MethodKind.novel, .overridden, .inherited].flatMap c.bindingsOfKind =
      c.bindingsOfKind .novel ++ (c.bindingsOfKind .overridden ++ c.bindingsOfKind .inherited) := by
    simp
  rw [hall]
  exact (hrest.append_left _).trans hnovel

theorem rowOf_offset (b : MethodBinding) (k : MethodKind) :
    (rowOf b k).field? "offset" = some ("&" ++ b.offsetSym) := by
  cases k <;> rfl

/-- **The rows of the three arrays refer to the offset of each method once.** -/
theorem offsets_perm {c : Class} (hinert : c.inert = false) :
    (([MethodKind.novel, .overridden, .inherited].flatMap fun k =>
      c.dataFragment.rowsOf (c.arrayName k)).map (·.field? "offset")).Perm
        (c.offsetSyms.map fun v => some ("&" ++ v)) := by
  have hrows : ∀ k, (c.dataFragment.rowsOf (c.arrayName k)).map (·.field? "offset") =
      (c.bindingsOfKind k).map fun b => some ("&" ++ b.offsetSym) := by
    intro k
    rw [rowsOf_dataFragment c hinert, List.map_map]
    exact List.map_congr_left fun b _ => rowOf_offset b k
  have hall : c.bindings.map (fun b => some ("&" ++ b.offsetSym)) =
      c.offsetSyms.map fun v => some ("&" ++ v) := map_bindings fun _ => rfl
  rw [← hall, List.map_flatMap]
  simp only [hrows]
  rw [← List.map_flatMap]
  exact c.bindingsOfKind_perm.map _

/-! ## What the parent has -/

/-- **What a class does not introduce is in the list of its parent.** -/
theorem exists_parent_method {c : Class} (hd : c.Distinct) {m : Method} (hm : m ∈ c.methods)
    (hk : c.kindOf m ≠ .novel) :
    ∃ parent, c.parent? = some parent ∧ ∃ m' ∈ parent.methods, m'.name = m.name := by
  obtain ⟨d, ds⟩ := c
  have habove : ∃ m' ∈ methodList ds, m'.name = m.name := by
    cases hkind : (⟨d, ds⟩ : Class).kindOf m with
    | novel => exact absurd hkind hk
    | overridden =>
        have hover := (mem_overridden_iff hd).mp (List.mem_filter.mpr ⟨hm, by simp [hkind]⟩)
        exact List.mem_map.mp hover.2
    | inherited =>
        have hinherited := (mem_inherited_iff hd).mp (List.mem_filter.mpr ⟨hm, by simp [hkind]⟩)
        exact ⟨m, hinherited.1, rfl⟩
  obtain ⟨m', hm', hname⟩ := habove
  cases ds with
  | nil => cases hm'
  | cons e es => exact ⟨⟨e, es⟩, rfl, m', hm', hname⟩

/-- The row of a method that is not new refers to the parent's variable for the same method. -/
theorem rowOf_parent_offset {c parent : Class} {m m' : Method} {k : MethodKind} (hk : k ≠ .novel)
    (hparent : c.parent? = some parent) (hname : m'.name = m.name) :
    (rowOf ⟨m, c⟩ k).field? "parent_offset" =
      some ("&" ++ m'.fullOffsetSym parent.toClassHead) := by
  have href : (⟨m, c⟩ : MethodBinding).parentOffsetRef =
      "&" ++ m'.fullOffsetSym parent.toClassHead := by
    unfold MethodBinding.parentOffsetRef
    rw [hparent, Method.fullOffsetSym_inj.mpr hname]
  rw [← href]
  cases k with
  | novel => exact absurd rfl hk
  | overridden => rfl
  | inherited => rfl

/-- The data defines a variable for each entry. -/
theorem offsetVar_mem {c : Class} (hinert : c.inert = false) {m : Method} (hm : m ∈ c.methods) :
    { type := "size_t", name := m.fullOffsetSym c.toClassHead } ∈ c.dataFragment.vars := by
  rw [vars_dataFragment c hinert]
  refine List.mem_append_left _ (List.mem_cons_of_mem _ ?_)
  exact List.mem_map.mpr ⟨⟨m, c⟩, List.mem_map_of_mem hm, rfl⟩

/-! ## All together -/

/-- The offset variables of a class are declared, defined and referred to, each once, and its
references to variables of the parent are to some that the parent defines. -/
structure OffsetsLink (h : Hierarchy) (c : Class) : Prop where
  distinct : c.offsetSyms.Nodup
  declared : c.headerFragment.vars =
    { type := "size_t", name := c.fullIvarsOffset, specifiers := "extern" } ::
      c.inertVarDecs.vars ++
        c.offsetSyms.map fun v =>
          { type := "size_t", name := v, specifiers := "extern " ++ c.visible }
  defined : c.dataFragment.vars = { type := "size_t", name := c.fullIvarsOffset } ::
    c.offsetSyms.map (fun v => { type := "size_t", name := v }) ++
      [{ type := "cfish_Class", name := "*" ++ c.fullClassVar }]
  referenced : (([MethodKind.novel, .overridden, .inherited].flatMap fun k =>
    c.dataFragment.rowsOf (c.arrayName k)).map (·.field? "offset")).Perm
      (c.offsetSyms.map fun v => some ("&" ++ v))
  /-- A row for what is not new refers to the variable of the same method in the parent. -/
  parents : ∀ k ≠ MethodKind.novel, ∀ row ∈ c.dataFragment.rowsOf (c.arrayName k),
    row.field? "parent_offset" ≠ some "NULL" ∧
    ∃ parent ∈ h.liveClasses, c.parent? = some parent ∧
      ∃ m ∈ c.methods, ∃ m' ∈ parent.methods, m'.name = m.name ∧
        row.field? "offset" = some ("&" ++ m.fullOffsetSym c.toClassHead) ∧
        row.field? "parent_offset" = some ("&" ++ m'.fullOffsetSym parent.toClassHead) ∧
        { type := "size_t", name := m'.fullOffsetSym parent.toClassHead } ∈
          parent.dataFragment.vars
  roots : c.parent? = none → ∀ k ≠ MethodKind.novel, c.dataFragment.rowsOf (c.arrayName k) = []

end Class

/-- **Offset variables link up,** in every class with instances of every hierarchy. -/
theorem offsets_link {d : Declarations} {h : Hierarchy} {c : Class} (hb : d.build = .ok h)
    (hc : c ∈ h.liveClasses) : c.OffsetsLink h := by
  have hd := (distinct_of_build hb (mem_classes_of_live hc)).1
  have hinert := not_inert_of_live hc
  -- a row of an array is for a method of the kind
  have hrow : ∀ k, ∀ row ∈ c.dataFragment.rowsOf (c.arrayName k),
      ∃ m ∈ c.methods, c.kindOf m = k ∧ row = Class.rowOf ⟨m, c⟩ k := by
    intro k row hrow
    rw [c.rowsOf_dataFragment hinert, c.bindingsOfKind_eq, List.map_map] at hrow
    obtain ⟨m, hm, rfl⟩ := List.mem_map.mp hrow
    obtain ⟨hm, hk⟩ := List.mem_filter.mp hm
    exact ⟨m, hm, beq_iff_eq.mp hk, rfl⟩
  refine ⟨Class.offsetSyms_nodup hd, ?_, ?_, Class.offsets_perm hinert, ?_, ?_⟩
  · rw [c.vars_headerFragment, if_neg (by simp [hinert])]
    exact congrArg (_ ++ ·) (Class.map_bindings fun _ => rfl)
  · rw [c.vars_dataFragment hinert]
    exact congrArg (_ :: · ++ _) (Class.map_bindings fun _ => rfl)
  · intro k hk row hmem
    obtain ⟨m, hm, hkind, rfl⟩ := hrow k row hmem
    obtain ⟨parent, hparent, m', hm', hname⟩ :=
      Class.exists_parent_method hd hm (hkind.symm ▸ hk)
    have hancestor : parent ∈ c :: c.ancestors :=
      List.mem_cons_of_mem _ (List.mem_of_mem_head? hparent)
    have hlive := self_or_ancestor_mem_liveClasses hb hc hancestor
    have href := Class.rowOf_parent_offset hk hparent hname
    refine ⟨?_, parent, hlive, hparent, m, hm, m', hm', hname, Class.rowOf_offset _ k, href,
      Class.offsetVar_mem (not_inert_of_live hlive) hm'⟩
    rw [href, ne_eq, Option.some.injEq]
    exact address_ne_null _
  · intro hroot k hk
    rw [List.eq_nil_iff_forall_not_mem]
    intro row hmem
    obtain ⟨m, hm, hkind, -⟩ := hrow k row hmem
    obtain ⟨parent, hparent, -⟩ := Class.exists_parent_method hd hm (hkind.symm ▸ hk)
    rw [hroot] at hparent
    cases hparent

/-- `Husky` introduces `Pull` and has six methods of its parent, which is in another parcel. -/
theorem kennel_offsets : ∃ c ∈ kennelHierarchy.liveClasses, c.name = "Kennel::Husky" ∧
    c.methods.map (·.name) =
      ["Destroy", "Equals", "To_String", "Speak", "Get_Name", "Fetch", "Pull"] ∧
      (c.dataFragment.rowsOf (c.arrayName .inherited)).length = 6 ∧
        kennel.build = .ok kennelHierarchy ∧ c.OffsetsLink kennelHierarchy := by
  have hfound : ∃ c ∈ kennelHierarchy.liveClasses, c.name = "Kennel::Husky" ∧
      c.methods.map (·.name) =
        ["Destroy", "Equals", "To_String", "Speak", "Get_Name", "Fetch", "Pull"] ∧
        (c.bindingsOfKind .inherited).length = 6 := by decide +kernel
  obtain ⟨c, hc, hname, hmethods, hcount⟩ := hfound
  refine ⟨c, hc, hname, hmethods, ?_, kennel_build, offsets_link kennel_build hc⟩
  rw [c.rowsOf_dataFragment (not_inert_of_live hc), List.length_map, hcount]

end ClassTables
