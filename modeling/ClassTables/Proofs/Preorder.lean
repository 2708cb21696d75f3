import ClassTables.Hierarchy.Order
import ClassTables.Proofs.Lineage
/-!
# The classes of a forest, in preorder

`preorder` walks down from the roots to a depth, and gives every class it meets the lineage it came
by.  Here: what it meets is exactly the classes with a lineage (`mem_preorder_iff`), each once
(`preorder_names_nodup`), and parents first (`parentsFirst_preorder`).  So `order` answers exactly
when every class has a lineage (`order_eq_ok_iff`).
-/

namespace ClassTables

/-- Lineages of resolved declarations. -/
abbrev DefLineage (defs : List ClassDef) : List ClassDef → Prop :=
  Lineage (fun d : ClassDef => d.name) (·.parentName) defs

/-- The names of resolved declarations are distinct. -/
abbrev DistinctDefs (defs : List ClassDef) : Prop := (defs.map fun d : ClassDef => d.name).Nodup

variable {defs : List ClassDef}

/-! ## Views of a class -/

@[simp] theorem Class.lineage_mk (d : ClassDef) (above : List ClassDef) :
    (⟨d, above⟩ : Class).lineage = d :: above := rfl

theorem Class.lineage_injective : Function.Injective Class.lineage := by
  rintro ⟨d, above⟩ ⟨e, above'⟩ h
  cases h
  rfl

/-- The ancestors of a class are the classes that its lineage leads through. -/
theorem Class.mem_ofLineage_iff {a : Class} : ∀ {l : List ClassDef},
    a ∈ Class.ofLineage l ↔ a.lineage <:+ l
  | [] => by simp [Class.ofLineage, Class.lineage]
  | d :: ds => by
      rw [Class.ofLineage, List.mem_cons, List.suffix_cons_iff, Class.mem_ofLineage_iff]
      exact or_congr_left ⟨fun h => h ▸ rfl, fun h => Class.lineage_injective h⟩

theorem Class.mem_ancestors_iff {a c : Class} : a ∈ c.ancestors ↔ a.lineage <:+ c.above :=
  Class.mem_ofLineage_iff

theorem Class.parent?_eq_some_iff {c p : Class} : c.parent? = some p ↔ c.above = p.lineage := by
  obtain ⟨d, above⟩ := c
  cases above with
  | nil => simp [Class.parent?, Class.ancestors, Class.ofLineage, Class.lineage]
  | cons e above =>
      constructor
      · rintro ⟨⟩
        rfl
      · intro h
        exact congrArg some (Class.lineage_injective h)

/-! ## Roots and children -/

theorem mem_childrenOf {n : String} {d : ClassDef} :
    d ∈ childrenOf defs n ↔ d ∈ defs ∧ d.parentName = some n := by
  simp [childrenOf]

theorem mem_rootsOf {d : ClassDef} : d ∈ rootsOf defs ↔ d ∈ defs ∧ d.parentName = none := by
  simp [rootsOf]

/-! ## What the walk meets -/

theorem mem_descend_self (k : Nat) (above : List ClassDef) (d : ClassDef) :
    ⟨d, above⟩ ∈ descend defs k above d := by
  cases k <;> exact List.mem_cons_self

theorem suffix_of_mem_descend {c : Class} : ∀ {k : Nat} {above : List ClassDef} {d : ClassDef},
    c ∈ descend defs k above d → d :: above <:+ c.lineage
  | 0, above, d, h => by
      rw [descend, List.mem_singleton] at h
      exact h ▸ List.suffix_rfl
  | k + 1, above, d, h => by
      rw [descend, List.mem_cons, List.mem_flatMap] at h
      rcases h with rfl | ⟨e, _, h⟩
      · exact List.suffix_rfl
      · exact (List.suffix_cons e (d :: above)).trans (suffix_of_mem_descend h)

theorem lineage_of_mem_descend {c : Class} : ∀ {k : Nat} {above : List ClassDef} {d : ClassDef},
    DefLineage defs (d :: above) → c ∈ descend defs k above d → DefLineage defs c.lineage
  | 0, above, d, hd, h => by
      rw [descend, List.mem_singleton] at h
      exact h ▸ hd
  | k + 1, above, d, hd, h => by
      rw [descend, List.mem_cons, List.mem_flatMap] at h
      rcases h with rfl | ⟨e, he, h⟩
      · exact hd
      · obtain ⟨he, hp⟩ := mem_childrenOf.mp he
        exact lineage_of_mem_descend (.child he hp hd) h

/-- A walk of `k` generations meets every class whose lineage is at most `k` longer. -/
theorem mem_descend_of_lineage {c : Class} :
    ∀ {k : Nat} {below above : List ClassDef} {d : ClassDef}, below.length ≤ k →
      c.lineage = below ++ d :: above → DefLineage defs c.lineage → c ∈ descend defs k above d := by
  intro k
  induction k with
  | zero =>
      intro below above d hlen heq _
      rw [List.length_eq_zero_iff.mp (Nat.le_zero.mp hlen), List.nil_append] at heq
      have hc : c = ⟨d, above⟩ := Class.lineage_injective heq
      exact hc ▸ mem_descend_self 0 above d
  | succ k ih =>
      intro below above d hlen heq hlin
      rcases List.eq_nil_or_concat below with rfl | ⟨below, e, rfl⟩
      · have hc : c = ⟨d, above⟩ := Class.lineage_injective heq
        exact hc ▸ mem_descend_self _ above d
      · -- `e` is the child of `d` on the way down to `c`
        rw [List.concat_eq_append, List.append_assoc, List.singleton_append] at heq
        rw [List.length_concat] at hlen
        have he : DefLineage defs (e :: d :: above) := Lineage.of_append below (heq ▸ hlin)
        rw [descend, List.mem_cons, List.mem_flatMap]
        exact Or.inr ⟨e, mem_childrenOf.mpr ⟨he.mem_of_head, he.parent_head⟩,
          ih (by omega) heq hlin⟩

/-- **The preorder holds exactly the classes with a lineage.**  The depth suffices because a
lineage repeats no class. -/
theorem mem_preorder_iff (hnd : DistinctDefs defs) {c : Class} :
    c ∈ preorder defs ↔ DefLineage defs c.lineage := by
  rw [preorder, List.mem_flatMap]
  constructor
  · rintro ⟨r, hr, hc⟩
    obtain ⟨hr, hp⟩ := mem_rootsOf.mp hr
    exact lineage_of_mem_descend (.root hr hp) hc
  · intro h
    have hne : c.lineage ≠ [] := List.cons_ne_nil _ _
    have heq := (List.dropLast_append_getLast hne).symm
    have hroot : DefLineage defs [c.lineage.getLast hne] := Lineage.of_append _ (heq ▸ h)
    refine ⟨_, mem_rootsOf.mpr ⟨hroot.mem_of_head, hroot.parent_head⟩,
      mem_descend_of_lineage ?_ heq h⟩
    have hlen := h.length_le hnd
    rw [List.length_dropLast]
    omega

theorem ancestor_mem_preorder (hnd : DistinctDefs defs) {a c : Class} (hc : c ∈ preorder defs)
    (ha : a ∈ c.ancestors) : a ∈ preorder defs := by
  obtain ⟨below, heq⟩ := Class.mem_ancestors_iff.mp ha
  rw [mem_preorder_iff hnd] at hc ⊢
  rw [Class.lineage, ← heq] at hc
  exact Lineage.of_append (c.toClassDef :: below) hc

/-! ## Each class once -/

/-- The walks from different starting points below one lineage meet different classes. -/
theorem flatMap_descend_nodup {k : Nat} {above ds : List ClassDef} (hds : ds.Nodup)
    (h : ∀ d ∈ ds, (descend defs k above d).Nodup) : (ds.flatMap (descend defs k above)).Nodup := by
  rw [List.nodup_flatMap]
  refine ⟨h, hds.pairwise_of_forall_ne ?_⟩
  intro d _ e _ hne c hcd hce
  have hd := suffix_of_mem_descend hcd
  have he := suffix_of_mem_descend hce
  have heq := List.IsSuffix.eq_of_length (List.suffix_of_suffix_length_le hd he (by simp)) (by simp)
  exact hne (List.cons.inj heq).1

theorem descend_nodup (hnd : defs.Nodup) :
    ∀ (k : Nat) (above : List ClassDef) (d : ClassDef), (descend defs k above d).Nodup
  | 0, _, _ => List.nodup_singleton _
  | k + 1, above, d => by
      rw [descend, List.nodup_cons]
      refine ⟨?_, flatMap_descend_nodup (hnd.filter _) fun e _ => descend_nodup hnd k _ e⟩
      intro hmem
      -- whatever is met below has a longer lineage
      obtain ⟨e, _, hmem⟩ := List.mem_flatMap.mp hmem
      have hlen := (suffix_of_mem_descend hmem).length_le
      rw [Class.lineage_mk, List.length_cons, List.length_cons] at hlen
      omega

theorem preorder_nodup (hnd : DistinctDefs defs) : (preorder defs).Nodup := by
  have hdefs : defs.Nodup := List.Nodup.of_map _ hnd
  exact flatMap_descend_nodup (hdefs.filter _) fun d _ => descend_nodup hdefs _ [] d

/-- A class of the preorder is known by its name. -/
theorem eq_of_mem_preorder (hnd : DistinctDefs defs) {a c : Class} (ha : a ∈ preorder defs)
    (hc : c ∈ preorder defs) (h : a.name = c.name) : a = c := by
  rw [mem_preorder_iff hnd] at ha hc
  obtain ⟨d, above⟩ := a
  obtain ⟨e, above'⟩ := c
  have hde : d = e := eq_of_name_eq hnd ha.mem_of_head hc.mem_of_head h
  subst hde
  rw [Class.mk.injEq]
  exact ⟨rfl, ha.above_eq hnd hc⟩

theorem preorder_names_nodup (hnd : DistinctDefs defs) :
    ((preorder defs).map fun c : Class => c.name).Nodup :=
  (preorder_nodup hnd).map_on fun _ ha _ hc => eq_of_mem_preorder hnd ha hc

/-! ## Parents first -/

/-- Every class comes after its parent, which may also be among those `seen` before. -/
def ParentsFirst : List Class → List Class → Prop
  | _, [] => True
  | seen, c :: cs => (∀ p, c.parent? = some p → p ∈ seen) ∧ ParentsFirst (c :: seen) cs

theorem ParentsFirst.mono : ∀ {l seen seen' : List Class}, seen ⊆ seen' → ParentsFirst seen l →
    ParentsFirst seen' l
  | [], _, _, _, _ => trivial
  | c :: _, _, _, hsub, h =>
      ⟨fun p hp => hsub (h.1 p hp), h.2.mono (List.cons_subset_cons c hsub)⟩

theorem ParentsFirst.append : ∀ {l l' seen : List Class}, ParentsFirst seen l →
    ParentsFirst seen l' → ParentsFirst seen (l ++ l')
  | [], _, _, _, h' => h'
  | c :: _, _, _, h, h' =>
      ⟨h.1, h.2.append (h'.mono (List.subset_cons_self c _))⟩

theorem ParentsFirst.flatMap {f : ClassDef → List Class} {seen : List Class} :
    ∀ {ds : List ClassDef}, (∀ d ∈ ds, ParentsFirst seen (f d)) → ParentsFirst seen (ds.flatMap f)
  | [], _ => trivial
  | d :: ds, h => by
      rw [List.flatMap_cons]
      exact (h d List.mem_cons_self).append
        (ParentsFirst.flatMap fun e he => h e (List.mem_cons_of_mem _ he))

theorem parentsFirst_descend : ∀ {k : Nat} {above : List ClassDef} {d : ClassDef}
    {seen : List Class}, (∀ p, (⟨d, above⟩ : Class).parent? = some p → p ∈ seen) →
      ParentsFirst seen (descend defs k above d)
  | 0, _, _, _, h => ⟨h, trivial⟩
  | _ + 1, above, d, seen, h => by
      refine ⟨h, ParentsFirst.flatMap fun e _ => parentsFirst_descend fun p hp => ?_⟩
      have hp : p = ⟨d, above⟩ := Class.lineage_injective (Class.parent?_eq_some_iff.mp hp).symm
      exact hp ▸ List.mem_cons_self

/-- **Parents stand before their children.** -/
theorem parentsFirst_preorder (defs : List ClassDef) : ParentsFirst [] (preorder defs) :=
  ParentsFirst.flatMap fun _ _ => parentsFirst_descend fun _ hp =>
    absurd (Class.parent?_eq_some_iff.mp hp).symm (List.cons_ne_nil _ _)

/-! ## When there is an order -/

theorem any_name_preorder_iff (hnd : DistinctDefs defs) {d : ClassDef} (hd : d ∈ defs) :
    (preorder defs).any (fun c => c.name == d.name) = true ↔
      ∃ above, DefLineage defs (d :: above) := by
  simp only [List.any_eq_true, beq_iff_eq]
  constructor
  · rintro ⟨c, hc, hname⟩
    rw [mem_preorder_iff hnd] at hc
    have hcd : c.toClassDef = d := eq_of_name_eq hnd hc.mem_of_head hd hname
    exact ⟨c.above, hcd ▸ hc⟩
  · rintro ⟨above, h⟩
    exact ⟨⟨d, above⟩, (mem_preorder_iff hnd).mpr h, rfl⟩

/-- **There is an order exactly when every class has a lineage,** and then it is the preorder. -/
theorem order_eq_ok_iff (hnd : DistinctDefs defs) {cs : List Class} :
    order defs = .ok cs ↔
      cs = preorder defs ∧ ∀ d ∈ defs, ∃ above, DefLineage defs (d :: above) := by
  have hfind : defs.find? (fun d => !(preorder defs).any fun c => c.name == d.name) = none ↔
      ∀ d ∈ defs, ∃ above, DefLineage defs (d :: above) := by
    rw [List.find?_eq_none]
    refine forall₂_congr fun d hd => ?_
    rw [← any_name_preorder_iff hnd hd, Bool.not_eq_true', Bool.not_eq_false]
  rw [order, ← hfind]
  cases hlost : defs.find? (fun d => !(preorder defs).any fun c => c.name == d.name) with
  | none => simp [eq_comm]
  | some lost => simp

end ClassTables
