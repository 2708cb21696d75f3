import ClassTables.Proofs.Loading
/-!
# The flattened method lists of a hierarchy

A class starts from the method list of its parent, exchanges in place what it declares again, and
appends what it introduces.  Where an entry stands, which declaration it is and of what kind it is
are worked out separately: the slot by its name, the declaration by the class that made it, the kind
by a flag that was set when it was made.

Here they are shown to agree.  `Class.Flattened` says of one class what its list is, in terms of the
declarations on its lineage alone, and every class of a hierarchy that was built has such a list
(`flattened_of_build`).
-/

namespace ClassTables

namespace Class

/-! ## What the list is compared with -/

/-- The names of the methods that a class declares, in declaration order. -/
def declaredNames (c : Class) : List String := c.ownMethods.map (·.name)

/-- An ancestor declares a method of the given name. -/
def DeclaredAbove (c : Class) (n : String) : Prop := ∃ a ∈ c.ancestors, n ∈ a.declaredNames

instance (c : Class) (n : String) : Decidable (c.DeclaredAbove n) :=
  inferInstanceAs (Decidable (∃ a ∈ c.ancestors, n ∈ a.declaredNames))

/-- The method list of the parent; nothing, for a class without one. -/
def parentMethods (c : Class) : List Method := (c.parent?.map (·.methods)).getD []

/-- The method list of a class, as its lineage has it. -/
structure Flattened (c : Class) : Prop where
  /-- No name stands twice. -/
  distinct : (c.methods.map (·.name)).Nodup
  /-- The parent's names come first, then those that the class is the first one to declare. -/
  names : c.methods.map (·.name) =
    c.parentMethods.map (·.name) ++ c.declaredNames.filter (fun n => ¬ c.DeclaredAbove n)
  /-- The entry under a name is the declaration by the nearest class that makes one. -/
  nearest : ∀ n, c.method? n = c.declaration? n
  /-- What is inherited is what stands in the same slot of the parent. -/
  inherited : ∀ (i : Nat) (m : Method), c.methods[i]? = some m →
    (c.kindOf m = .inherited ↔ c.parentMethods[i]? = some m)
  /-- What is overridden is declared by the class under a name that the parent has. -/
  overridden : ∀ m ∈ c.methods,
    (c.kindOf m = .overridden ↔
      m.name ∈ c.declaredNames ∧ m.name ∈ c.parentMethods.map (·.name))
  /-- What is novel is declared by the class and by none of its ancestors. -/
  novel : ∀ m ∈ c.methods,
    (c.kindOf m = .novel ↔ m.name ∈ c.declaredNames ∧ ¬ c.DeclaredAbove m.name)

theorem parentMethods_eq (c : Class) : c.parentMethods = methodList c.above := by
  unfold parentMethods
  cases hp : c.parent? with
  | none =>
      rw [above_of_parent?_none hp]
      rfl
  | some p =>
      rw [parent?_eq_some_iff.mp hp]
      rfl

end Class

/-! ## Names -/

/-- The names of a method list are those that are declared on the lineage. -/
theorem mem_methodList_names_iff {l : List ClassDef} (h : MethodsDistinct l) {n : String} :
    n ∈ (methodList l).map (·.name) ↔ ∃ a ∈ Class.ofLineage l, n ∈ a.declaredNames := by
  rw [← not_iff_not, ← find?_key_eq_none_iff, find?_methodList h, List.findSome?_eq_none_iff]
  simp only [not_exists, not_and]
  refine forall₂_congr fun a _ => ?_
  rw [find?_key_eq_none_iff, Class.freshMethods, ClassDef.fresh_names]
  rfl

section Entries

variable {d : ClassDef} {ds : List ClassDef} {m : Method}

theorem declaredAbove_iff (h : MethodsDistinct ds) {n : String} :
    (⟨d, ds⟩ : Class).DeclaredAbove n ↔ n ∈ (methodList ds).map (·.name) :=
  (mem_methodList_names_iff h).symm

/-- Methods that are novel are those that no ancestor declares, and stay in declaration order. -/
theorem novel_names (h : MethodsDistinct ds) :
    ((d.fresh (methodList ds)).filter (·.isNovel)).map (·.name) =
      (⟨d, ds⟩ : Class).declaredNames.filter
        (fun n => ¬ (⟨d, ds⟩ : Class).DeclaredAbove n) := by
  unfold ClassDef.fresh Class.declaredNames
  rw [List.filter_map, List.filter_map, List.map_map]
  have hkeep : ∀ decl ∈ d.ownMethods,
      ((·.isNovel) ∘ d.declare (methodList ds)) decl =
        ((fun n => decide (¬ (⟨d, ds⟩ : Class).DeclaredAbove n)) ∘ (·.name)) decl := by
    intro decl hdecl
    rw [Function.comp_apply, Function.comp_apply, Bool.eq_iff_iff, decide_eq_true_iff,
      declaredAbove_iff h, ClassDef.isNovel_of_mem_fresh (List.mem_map_of_mem hdecl)]
    rfl
  rw [List.filter_congr hkeep]
  rfl

/-! ## Slots -/

/-- **A slot of the parent is a slot of the class,** and holds what the class makes of the entry. -/
theorem getElem?_methodList_cons (hd : (d.ownMethods.map (·.name)).Nodup) {i : Nat}
    (hi : (methodList ds)[i]? = some m) :
    (methodList (d :: ds))[i]? = some (redeclared (d.fresh (methodList ds)) m) := by
  have hlt : i < (methodList ds).length := (List.getElem?_eq_some_iff.mp hi).1
  rw [methodList_cons hd, List.getElem?_append_left (by rwa [List.length_map]), List.getElem?_map,
    hi]
  rfl

/-- Slots of one name are one slot. -/
theorem slot_unique {l : List Method} (hnd : (l.map (·.name)).Nodup) {i j : Nat} {x y : Method}
    (hi : l[i]? = some x) (hj : l[j]? = some y) (hname : x.name = y.name) : i = j := by
  have hlt : i < (l.map (·.name)).length := by
    rw [List.length_map]
    exact (List.getElem?_eq_some_iff.mp hi).1
  apply (List.getElem?_inj hlt hnd).mp
  rw [List.getElem?_map, List.getElem?_map, hi, hj, Option.map_some, Option.map_some, hname]

/-! ## Kinds -/

/-- An entry is the class's own when the class declares its name. -/
theorem mem_fresh_iff (h : (⟨d, ds⟩ : Class).Distinct) (hm : m ∈ methodList (d :: ds)) :
    m ∈ d.fresh (methodList ds) ↔ m.name ∈ (⟨d, ds⟩ : Class).declaredNames := by
  unfold Class.declaredNames
  rw [← d.fresh_names (methodList ds)]
  constructor
  · intro hfresh
    exact List.mem_map_of_mem hfresh
  · intro hname
    rcases (mem_methodList_cons (h.methods d List.mem_cons_self)).mp hm with hfresh | ⟨_, hnot⟩
    · exact hfresh
    · exact absurd hname hnot

theorem kindOf_eq_overridden_iff (h : (⟨d, ds⟩ : Class).Distinct)
    (hm : m ∈ methodList (d :: ds)) :
    (⟨d, ds⟩ : Class).kindOf m = .overridden ↔
      m.name ∈ (⟨d, ds⟩ : Class).declaredNames ∧ m.name ∈ (methodList ds).map (·.name) := by
  rw [← mem_fresh_iff h hm, ← mem_overridden_iff h, List.mem_filter, beq_iff_eq]
  exact ⟨fun hk => ⟨hm, hk⟩, fun hk => hk.2⟩

theorem kindOf_eq_novel_iff (h : (⟨d, ds⟩ : Class).Distinct) (hm : m ∈ methodList (d :: ds)) :
    (⟨d, ds⟩ : Class).kindOf m = .novel ↔
      m.name ∈ (⟨d, ds⟩ : Class).declaredNames ∧ ¬ (⟨d, ds⟩ : Class).DeclaredAbove m.name := by
  have hmem : m ∈ (⟨d, ds⟩ : Class).methods.filter ((⟨d, ds⟩ : Class).kindOf · == .novel) ↔
      m ∈ (d.fresh (methodList ds)).filter (·.isNovel) := by
    rw [filter_novel h]
  rw [List.mem_filter, List.mem_filter, beq_iff_eq, mem_fresh_iff h hm] at hmem
  rw [declaredAbove_iff h.methods.tail]
  constructor
  · intro hk
    obtain ⟨hname, hflag⟩ := hmem.mp ⟨hm, hk⟩
    exact ⟨hname, (ClassDef.isNovel_of_mem_fresh ((mem_fresh_iff h hm).mpr hname)).mp hflag⟩
  · rintro ⟨hname, hnot⟩
    exact (hmem.mpr ⟨hname,
      (ClassDef.isNovel_of_mem_fresh ((mem_fresh_iff h hm).mpr hname)).mpr hnot⟩).2

/-- What is inherited has kept its slot. -/
theorem kindOf_eq_inherited_iff (h : (⟨d, ds⟩ : Class).Distinct) {i : Nat}
    (hi : (methodList (d :: ds))[i]? = some m) :
    (⟨d, ds⟩ : Class).kindOf m = .inherited ↔ (methodList ds)[i]? = some m := by
  have hm : m ∈ methodList (d :: ds) := List.mem_of_getElem? hi
  constructor
  · intro hk
    have hmem : m ∈ (⟨d, ds⟩ : Class).methods.filter ((⟨d, ds⟩ : Class).kindOf · == .inherited) :=
      List.mem_filter.mpr ⟨hm, beq_iff_eq.mpr hk⟩
    obtain ⟨hold, hnot⟩ := (mem_inherited_iff h).mp hmem
    -- `m` stands in some slot of the parent, which the class leaves as it is
    obtain ⟨j, hj⟩ := List.mem_iff_getElem?.mp hold
    have hkept := getElem?_methodList_cons (h.methods d List.mem_cons_self) hj
    rw [redeclared_of_not_mem hnot] at hkept
    rwa [slot_unique (methodList_names_nodup h.methods) hi hkept rfl]
  · intro hold
    exact kindOf_of_mem_above h (List.mem_of_getElem? hold)

end Entries

/-- **The list of a class without repetitions is flattened.** -/
theorem Class.Distinct.flattened {c : Class} (h : c.Distinct) : c.Flattened := by
  obtain ⟨d, ds⟩ := c
  have hparent := (⟨d, ds⟩ : Class).parentMethods_eq
  refine ⟨methodList_names_nodup h.methods, ?_, Class.method?_eq_declaration? h.methods, ?_, ?_, ?_⟩
  · rw [hparent, ← novel_names h.methods.tail]
    exact methodList_names_cons (h.methods d List.mem_cons_self)
  · intro i m hi
    rw [hparent]
    exact kindOf_eq_inherited_iff h hi
  · intro m hm
    rw [hparent]
    exact kindOf_eq_overridden_iff h hm
  · intro m hm
    exact kindOf_eq_novel_iff h hm

/-! ## Declarations of a hierarchy -/

/-- A method counts as novel or overridden in the class that declares it only. -/
theorem kindOf_eq_inherited_iff_ne (c : Class) (m : Method) :
    c.kindOf m = .inherited ↔ m.declarer.name ≠ c.name := by
  unfold Class.kindOf Method.kindFor Method.isFreshIn
  by_cases hname : m.declarer.name = c.name
  · cases m.isNovel <;> simp [hname]
  · simp [hname]

/-- **The method lists of a hierarchy.**  Every class has the list that its lineage says, and every
declaration is novel or overridden in exactly one class, the one that makes it. -/
theorem flattened_of_build {d : Declarations} {h : Hierarchy} (hb : d.build = .ok h) :
    (∀ c ∈ h.classes, c.Flattened) ∧
      ∀ a ∈ h.classes, ∀ m ∈ a.freshMethods, m ∈ a.methods ∧
        ∀ c ∈ h.classes, (c.kindOf m = .novel ∨ c.kindOf m = .overridden) ↔ c = a := by
  obtain ⟨defs, hres, hclasses, -⟩ := exists_resolved_of_build hb
  rw [hclasses]
  constructor
  · intro c hc
    exact (hres.distinct hc).flattened
  · intro a ha m hm
    have hdist := hres.distinct ha
    constructor
    · exact (mem_methodList_cons (hdist.methods _ List.mem_cons_self)).mpr (Or.inl hm)
    · intro c hc
      have hdeclarer : m.declarer = a.toClassHead := ClassDef.declarer_of_mem_fresh hm
      have hkind := kindOf_eq_inherited_iff_ne c m
      rw [hdeclarer] at hkind
      constructor
      · intro hk
        -- names tell classes apart
        have hname : a.name = c.name := by
          by_contra hne
          rw [hkind.mpr hne] at hk
          rcases hk with hk | hk <;> cases hk
        exact (eq_of_mem_preorder hres.names ha hc hname).symm
      · rintro rfl
        cases hk : c.kindOf m with
        | novel => exact Or.inl rfl
        | overridden => exact Or.inr rfl
        | inherited => exact absurd rfl (hkind.mp hk)

theorem kennel_flattened : ∃ h, kennel.build = .ok h ∧ (∀ c ∈ h.classes, c.Flattened) ∧
    ∀ a ∈ h.classes, ∀ m ∈ a.freshMethods, m ∈ a.methods ∧
      ∀ c ∈ h.classes, (c.kindOf m = .novel ∨ c.kindOf m = .overridden) ↔ c = a := by
  have hok : kennel.build.toOption.isSome = true := by decide +kernel
  cases hb : kennel.build with
  | error e =>
      rw [hb] at hok
      cases hok
  | ok h => exact ⟨h, rfl, flattened_of_build hb⟩

end ClassTables
