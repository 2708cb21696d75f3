import ClassTables.Proofs.Layout
import ClassTables.Proofs.Loading
/-!
# Where members lie

The members of an instance come in blocks, one for each run of classes of one parcel on the lineage.
A run shares one struct, but where its block starts is worked out for each class of the run anew,
from the size of the nearest ancestor of another parcel and from the alignment of the block as that
class sees it.  A descendant that adds a member of a stricter alignment may move the block.

Here: the fields of a block are at the same offsets for the whole run, and the block of a descendant
starts where it does for an ancestor of the run exactly when the descendant's alignment divides that
place.  All sums are without bound, and right in 32 bits for blocks that fit (`Class.Fits`).
-/

namespace ClassTables

/-! ## Runs of classes of one parcel -/

namespace Class

variable {a c : Class}

theorem mem_self_or_ancestors_iff : a ∈ c :: c.ancestors ↔ a.lineage <:+ c.lineage :=
  mem_ofLineage_iff (l := c.lineage)

theorem above_length_lt (h : c.foreignAncestor? = some a) : a.above.length < c.above.length := by
  have hmem : a ∈ c.ancestors := List.mem_of_find?_eq_some h
  have hlen := (mem_ancestors_iff.mp hmem).length_le
  rw [lineage, List.length_cons] at hlen
  omega

/-- `a` is `c` or an ancestor of it, with classes of the same parcel only between them. -/
structure SameRun (a c : Class) : Prop where
  mem : a ∈ c :: c.ancestors
  parcel : a.parcel.name = c.parcel.name
  foreign : a.foreignAncestor? = c.foreignAncestor?

theorem SameRun.refl (c : Class) : c.SameRun c := ⟨List.mem_cons_self, rfl, rfl⟩

theorem SameRun.nonPackageCount (h : a.SameRun c) : a.nonPackageCount = c.nonPackageCount := by
  rw [Class.nonPackageCount, Class.nonPackageCount, h.foreign]

/-- The nearest ancestor of another parcel is the parent, or found from the parent. -/
theorem foreignAncestor?_of_parent? {p : Class} (hp : c.parent? = some p) :
    c.foreignAncestor? =
      if p.parcel.name = c.parcel.name then p.foreignAncestor? else some p := by
  rw [foreignAncestor?, foreignAncestor?, ancestors_of_parent? hp, List.find?_cons]
  by_cases h : p.parcel.name = c.parcel.name
  · simp [h]
  · have hne : (p.parcel.name != c.parcel.name) = true := bne_iff_ne.mpr h
    rw [if_neg h, hne]

theorem SameRun.of_parent? {p : Class} (hp : c.parent? = some p)
    (hparcel : p.parcel.name = c.parcel.name) : p.SameRun c := by
  refine ⟨?_, hparcel, ?_⟩
  · rw [ancestors_of_parent? hp]
    exact List.mem_cons_of_mem c List.mem_cons_self
  · rw [foreignAncestor?_of_parent? hp, if_pos hparcel]

theorem SameRun.trans {b : Class} (hab : a.SameRun b) (hbc : b.SameRun c) : a.SameRun c := by
  refine ⟨?_, hab.parcel.trans hbc.parcel, hab.foreign.trans hbc.foreign⟩
  have h := hab.mem
  have h' := hbc.mem
  rw [mem_self_or_ancestors_iff] at h h' ⊢
  exact h.trans h'

/-- **An ancestor is of the same run, or at or above the nearest ancestor of another parcel.** -/
theorem sameRun_or_foreign : ∀ {above : List ClassDef} {d : ClassDef},
    a ∈ (⟨d, above⟩ : Class) :: (⟨d, above⟩ : Class).ancestors → a.SameRun ⟨d, above⟩ ∨
      ∃ f, (⟨d, above⟩ : Class).foreignAncestor? = some f ∧ a ∈ f :: f.ancestors
  | [], d, ha => by
      rw [show (⟨d, []⟩ : Class).ancestors = [] from rfl, List.mem_singleton] at ha
      exact Or.inl (ha ▸ SameRun.refl _)
  | e :: above, d, ha => by
      have hp : (⟨d, e :: above⟩ : Class).parent? = some ⟨e, above⟩ := rfl
      have hforeign := foreignAncestor?_of_parent? hp
      rcases List.mem_cons.mp ha with rfl | ha'
      · exact Or.inl (SameRun.refl _)
      -- so `a` is the parent or an ancestor of the parent
      rw [ancestors_of_parent? hp] at ha'
      by_cases hparcel : e.parcel.name = d.parcel.name
      · rw [if_pos hparcel] at hforeign
        rcases sameRun_or_foreign ha' with h | h
        · exact Or.inl (h.trans (.of_parent? hp hparcel))
        · rw [← hforeign] at h
          exact Or.inr h
      · rw [if_neg hparcel] at hforeign
        exact Or.inr ⟨_, hforeign, ha'⟩

end Class

/-- Descendants have the members of their ancestors first. -/
theorem memberList_isPrefix {l : List ClassDef} : ∀ {l' : List ClassDef}, l <:+ l' →
    memberList l <+: memberList l'
  | [], h => by rw [List.suffix_nil.mp h]
  | d :: ds, h => by
      rcases List.suffix_cons_iff.mp h with rfl | h
      · exact List.prefix_rfl
      · exact (memberList_isPrefix h).trans (List.prefix_append _ _)

theorem Class.members_isPrefix {a c : Class} (h : a ∈ c :: c.ancestors) :
    a.members <+: c.members :=
  memberList_isPrefix (Class.mem_self_or_ancestors_iff.mp h)

/-! ## The class that places a member -/

/-- The class whose block holds the member of the given index: the class itself if the member is
local to it, else as for its nearest ancestor of another parcel. -/
def Class.holder (c : Class) (i : Nat) : Class :=
  if c.nonPackageCount ≤ i then c
  else
    match _h : c.foreignAncestor? with
    | none => c
    | some a => a.holder i
termination_by c.above.length
decreasing_by exact Class.above_length_lt ‹_›

/-- Where a class has a member of its own block, counted from the start of the block. -/
def Class.fieldOffset? (c : Class) (target : Target) (i : Nat) : Option Nat :=
  (c.layout target).fields[(c.headFields target).length + (i - c.nonPackageCount)]?.map (·.offset)

/-- Where an instance of a registered class has the member of the given index: a class places the
members that are local to it, and leaves any other to its nearest ancestor of another parcel. -/
def Registry.memberPlace? (r : Registry String) (target : Target) (c : Class) (i : Nat) :
    Option Nat :=
  if c.nonPackageCount ≤ i then
    (r.class? c.name).bind fun l => (c.fieldOffset? target i).map (l.ivarsOffset + ·)
  else
    match _h : c.foreignAncestor? with
    | none => none
    | some a => r.memberPlace? target a i
termination_by c.above.length
decreasing_by exact Class.above_length_lt ‹_›

section Holder

variable {c : Class} {i : Nat}

theorem Class.holder_of_local (h : c.nonPackageCount ≤ i) : c.holder i = c := by
  rw [Class.holder, if_pos h]

/-- A member that is not local comes from an ancestor of another parcel. -/
theorem Class.exists_foreign_of_lt (h : ¬ c.nonPackageCount ≤ i) :
    ∃ f, c.foreignAncestor? = some f ∧ i < f.members.length := by
  rw [Class.nonPackageCount] at h
  cases hf : c.foreignAncestor? with
  | none =>
      rw [hf] at h
      exact absurd (Nat.zero_le i) h
  | some f =>
      rw [hf] at h
      exact ⟨f, rfl, Nat.lt_of_not_le h⟩

theorem Class.holder_of_foreign {f : Class} (h : ¬ c.nonPackageCount ≤ i)
    (hf : c.foreignAncestor? = some f) : c.holder i = f.holder i := by
  rw [Class.holder, if_neg h]
  split
  · next hnone => exact nomatch hf.symm.trans hnone
  · next g hg =>
      rw [hf] at hg
      cases hg
      rfl

theorem Registry.memberPlace?_of_foreign {r : Registry String} {target : Target} {f : Class}
    (h : ¬ c.nonPackageCount ≤ i) (hf : c.foreignAncestor? = some f) :
    r.memberPlace? target c i = r.memberPlace? target f i := by
  rw [Registry.memberPlace?, if_neg h]
  split
  · next hnone => exact nomatch hf.symm.trans hnone
  · next g hg =>
      rw [hf] at hg
      cases hg
      rfl

/-- A class places the members that are not local where the class that holds them does. -/
theorem Registry.memberPlace?_eq_holder (r : Registry String) (target : Target) {i : Nat} :
    ∀ c : Class, r.memberPlace? target c i = (r.class? (c.holder i).name).bind fun l =>
      ((c.holder i).fieldOffset? target i).map (l.ivarsOffset + ·) := by
  intro c
  induction hn : c.above.length using Nat.strongRecOn generalizing c with
  | ind n ih =>
      by_cases h : c.nonPackageCount ≤ i
      · rw [Registry.memberPlace?, if_pos h, Class.holder_of_local h]
      · obtain ⟨f, hf, -⟩ := Class.exists_foreign_of_lt h
        rw [Registry.memberPlace?_of_foreign h hf, Class.holder_of_foreign h hf]
        exact ih _ (hn ▸ Class.above_length_lt hf) f rfl

/-- **A member of an ancestor's block is held by a class of the ancestor's run.** -/
theorem Class.holder_spec {a : Class} {i : Nat} (hlow : a.nonPackageCount ≤ i)
    (hhigh : i < a.members.length) : ∀ {c : Class}, a ∈ c :: c.ancestors →
      c.holder i ∈ c :: c.ancestors ∧ a.SameRun (c.holder i) := by
  intro c ha
  induction hn : c.above.length using Nat.strongRecOn generalizing c with
  | ind n ih =>
      by_cases h : c.nonPackageCount ≤ i
      · rw [Class.holder_of_local h]
        refine ⟨List.mem_cons_self, ?_⟩
        rcases Class.sameRun_or_foreign ha with hrun | ⟨f, hf, haf⟩
        · exact hrun
        · -- then all members of `a` would come from another parcel
          have hlen := (Class.members_isPrefix haf).length_le
          rw [Class.nonPackageCount, hf, Option.map_some, Option.getD_some] at h
          omega
      · obtain ⟨f, hf, -⟩ := Class.exists_foreign_of_lt h
        have haf : a ∈ f :: f.ancestors := by
          rcases Class.sameRun_or_foreign ha with hrun | ⟨g, hg, hag⟩
          · exact absurd (hrun.nonPackageCount ▸ hlow) h
          · cases hf.symm.trans hg
            exact hag
        obtain ⟨hmem, hrun⟩ := ih _ (hn ▸ Class.above_length_lt hf) haf rfl
        rw [Class.holder_of_foreign h hf]
        refine ⟨?_, hrun⟩
        have hfc : f ∈ c :: c.ancestors := List.mem_cons_of_mem c (List.mem_of_find?_eq_some hf)
        rw [Class.mem_self_or_ancestors_iff] at hmem hfc ⊢
        exact hmem.trans hfc

end Holder

/-! ## The block of a run -/

/-- More members come with more fields. -/
theorem FieldsOf.isPrefix {target : Target} {vs : List Variable} {fs : List (String × Extent)}
    (h : FieldsOf target vs fs) : ∀ {vs' : List Variable} {fs' : List (String × Extent)},
      vs <+: vs' → FieldsOf target vs' fs' → fs <+: fs' := by
  induction h with
  | nil =>
      intro vs' fs' _ _
      exact List.nil_prefix
  | cons hv _ ih =>
      intro vs' fs' hpre h'
      cases h' with
      | nil => exact absurd (List.prefix_nil.mp hpre) (List.cons_ne_nil _ _)
      | cons hv' h' =>
          obtain ⟨rfl, hrest⟩ := List.cons_prefix_cons.mp hpre
          have hf := Prod.ext (hv.1.trans hv'.1.symm) (Option.some.inj (hv.2.symm.trans hv'.2))
          exact List.cons_prefix_cons.mpr ⟨hf, ih hrest h'⟩

section Block

variable {target : Target} {a c : Class} {la lc : IvarsLayout}

theorem Class.length_localMembers (c : Class) :
    c.localMembers.length = c.members.length - c.nonPackageCount := List.length_drop

theorem Class.SameRun.localMembers_isPrefix (h : a.SameRun c) :
    a.localMembers <+: c.localMembers := by
  rw [Class.localMembers, Class.localMembers, h.nonPackageCount]
  exact (Class.members_isPrefix h.mem).drop _

/-- **Classes of a run agree on the fields that both have,** and the descendant's alignment is at
least as strict. -/
theorem Class.SameRun.layout (h : a.SameRun c) (hp : a.parcel = c.parcel)
    (ha : a.ivarsLayout target = .ok la) (hc : c.ivarsLayout target = .ok lc) :
    la.fields <+: lc.fields ∧ la.align ≤ lc.align ∧ 1 ≤ la.align ∧
      la.fields.length = (a.headFields target).length + a.localMembers.length := by
  obtain ⟨-, fs, hfs, rfl⟩ := Class.ivarsLayout_eq_ok_iff.mp ha
  obtain ⟨-, fs', hfs', rfl⟩ := Class.ivarsLayout_eq_ok_iff.mp hc
  have hhead : a.headFields target = c.headFields target := by
    rw [Class.headFields, Class.headFields, hp]
  obtain ⟨gs, rfl⟩ := hfs.isPrefix h.localMembers_isPrefix hfs'
  rw [← hhead, ← List.append_assoc, IvarsLayout.length_ofFields, List.length_append, hfs.length_eq]
  exact ⟨IvarsLayout.fields_isPrefix _ gs, IvarsLayout.align_le_ofFields _ gs,
    IvarsLayout.one_le_align _, rfl⟩

/-- A member of an ancestor's block is at the same offset in the block of a descendant of the run. -/
theorem Class.SameRun.fieldOffset? (h : a.SameRun c) (hp : a.parcel = c.parcel)
    (ha : a.ivarsLayout target = .ok la) (hc : c.ivarsLayout target = .ok lc) {i : Nat}
    (hlow : a.nonPackageCount ≤ i) (hhigh : i < a.members.length) :
    ∃ o, a.fieldOffset? target i = some o ∧ c.fieldOffset? target i = some o := by
  obtain ⟨hpre, -, -, hlen⟩ := h.layout hp ha hc
  have hhead : c.headFields target = a.headFields target := by
    rw [Class.headFields, Class.headFields, hp]
  rw [a.length_localMembers] at hlen
  have hlt : (a.headFields target).length + (i - a.nonPackageCount) < la.fields.length := by omega
  have hget := List.prefix_iff_getElem?.mp hpre _ hlt
  rw [Class.fieldOffset?, Class.fieldOffset?, Class.layout_eq ha, Class.layout_eq hc, hhead,
    ← h.nonPackageCount, hget, List.getElem?_eq_getElem hlt]
  exact ⟨_, rfl, rfl⟩

/-! ## Where a block starts -/

/-- A block starts behind the nearest ancestor of another parcel. -/
theorem Class.loaded_ivarsOffset (target : Target) (c : Class) :
    (c.loaded target).ivarsOffset = (c.foreignAncestor?.map fun f =>
      roundUp (f.loaded target).allocSize (max (c.layout target).align 1)).getD 0 := by
  rw [Class.loaded_eq, Class.loadedBelow, List.find?_map, Option.map_map]
  rfl

/-- **The block of a descendant starts where it does for an ancestor of the run exactly when the
descendant's alignment divides that place.** -/
theorem Class.SameRun.ivarsOffset_eq_iff (h : a.SameRun c) (hp : a.parcel = c.parcel)
    (ha : a.ivarsLayout target = .ok la) (hc : c.ivarsLayout target = .ok lc) :
    (c.loaded target).ivarsOffset = (a.loaded target).ivarsOffset ↔
      lc.align ∣ (a.loaded target).ivarsOffset := by
  obtain ⟨-, hle, hone, -⟩ := h.layout hp ha hc
  rw [Class.loaded_ivarsOffset, Class.loaded_ivarsOffset, h.foreign, Class.layout_eq ha,
    Class.layout_eq hc, max_eq_left hone, max_eq_left (hone.trans hle)]
  cases c.foreignAncestor? with
  | none => exact iff_of_true rfl (Nat.dvd_zero _)
  | some f =>
      have hround := roundUp_eq_roundUp_iff (n := (f.loaded target).allocSize) hle
      rwa [max_eq_left (hone.trans hle)] at hround

end Block

/-! ## In a hierarchy -/

section Hierarchy

variable {d : Declarations} {h : Hierarchy} {target : Target} {specs : List (ClassSpec String)}
  {a c : Class}

theorem exists_ivarsLayout (hs : h.runtimeSpecs target = .ok specs) (hc : c ∈ h.liveClasses) :
    ∃ l, c.ivarsLayout target = .ok l := by
  obtain ⟨s, hspec⟩ := exists_ok_of_mapM hs hc
  obtain ⟨l, hl, -⟩ := Class.runtimeSpec_eq_ok_iff.mp hspec
  exact ⟨l, hl⟩

/-- The ancestors of a class with instances have instances. -/
theorem ancestor_mem_liveClasses (hb : d.build = .ok h) (hc : c ∈ h.liveClasses)
    (ha : a ∈ c.ancestors) : a ∈ h.liveClasses := by
  obtain ⟨defs, hres, hclasses, -⟩ := exists_resolved_of_build hb
  rw [Hierarchy.liveClasses, hclasses, List.mem_filter] at hc ⊢
  refine ⟨ancestor_mem_preorder hres.names hc.1 ha, ?_⟩
  obtain ⟨below, heq⟩ := Class.mem_ancestors_iff.mp ha
  have hlin := (mem_preorder_iff hres.names).mp hc.1
  -- the class below `a` on the lineage of `c` has `a` as its parent
  rcases List.eq_nil_or_concat (c.toClassDef :: below) with hnil | ⟨below', x, hx⟩
  · exact absurd hnil (List.cons_ne_nil _ _)
  · have hlin' : DefLineage defs (below' ++ x :: a.lineage) := by
      rw [Class.lineage, ← heq, ← List.cons_append, hx, List.concat_eq_append, List.append_assoc]
        at hlin
      exact hlin
    have hxmem : (⟨x, a.lineage⟩ : Class) ∈ preorder defs :=
      (mem_preorder_iff hres.names).mpr (Lineage.of_append below' hlin')
    have hinert := hres.parent?_not_inert hxmem (Class.parent?_eq_some_iff.mpr rfl)
    rw [hinert]
    rfl

theorem self_or_ancestor_mem_liveClasses (hb : d.build = .ok h) (hc : c ∈ h.liveClasses)
    (ha : a ∈ c :: c.ancestors) : a ∈ h.liveClasses := by
  rcases List.mem_cons.mp ha with rfl | ha
  · exact hc
  · exact ancestor_mem_liveClasses hb hc ha

theorem parcel_eq_of_name_eq (hb : d.build = .ok h) (ha : a ∈ h.liveClasses)
    (hc : c ∈ h.liveClasses) (hname : a.parcel.name = c.parcel.name) : a.parcel = c.parcel := by
  obtain ⟨defs, hres, -, -⟩ := exists_resolved_of_build hb
  have ha := parcel_mem_of_build hb (mem_classes_of_live ha)
  have hc := parcel_mem_of_build hb (mem_classes_of_live hc)
  exact eq_of_name_eq hres.parcelNames ha hc hname

section Member

variable {i : Nat} (hb : d.build = .ok h) (hs : h.runtimeSpecs target = .ok specs)
  (hc : c ∈ h.liveClasses) (ha : a ∈ c.ancestors) (hlow : a.nonPackageCount ≤ i)
  (hhigh : i < a.members.length)

include hb hc ha hlow hhigh

theorem holder_mem_liveClasses : c.holder i ∈ h.liveClasses := by
  obtain ⟨hmem, -⟩ := Class.holder_spec hlow hhigh (List.mem_cons_of_mem c ha)
  exact self_or_ancestor_mem_liveClasses hb hc hmem

theorem sameRun_holder : a.SameRun (c.holder i) ∧ a.parcel = (c.holder i).parcel := by
  obtain ⟨-, hrun⟩ := Class.holder_spec hlow hhigh (List.mem_cons_of_mem c ha)
  exact ⟨hrun, parcel_eq_of_name_eq hb (ancestor_mem_liveClasses hb hc ha)
    (holder_mem_liveClasses hb hc ha hlow hhigh) hrun.parcel⟩

include hs

/-- A member is as far from the start of its block in an instance of a descendant as in an instance
of the ancestor. -/
theorem exists_memberPlace?_eq_add : ∃ o,
    (⟨h.liveClasses.map (·.loaded target)⟩ : Registry String).memberPlace? target c i =
        some (((c.holder i).loaded target).ivarsOffset + o) ∧
      (⟨h.liveClasses.map (·.loaded target)⟩ : Registry String).memberPlace? target a i =
        some ((a.loaded target).ivarsOffset + o) := by
  have halive := ancestor_mem_liveClasses hb hc ha
  have hholder := holder_mem_liveClasses hb hc ha hlow hhigh
  obtain ⟨hrun, hp⟩ := sameRun_holder hb hc ha hlow hhigh
  obtain ⟨la, hla⟩ := exists_ivarsLayout hs halive
  obtain ⟨lc, hlc⟩ := exists_ivarsLayout hs hholder
  obtain ⟨o, hoa, hoc⟩ := hrun.fieldOffset? hp hla hlc hlow hhigh
  refine ⟨o, ?_, ?_⟩
  · rw [Registry.memberPlace?_eq_holder, class?_of_bootstrap hb hholder, hoc]
    rfl
  · rw [Registry.memberPlace?_eq_holder, Class.holder_of_local hlow,
      class?_of_bootstrap hb halive, hoa]
    rfl

end Member

/-- **Where a member lies in an instance of a descendant.**  It lies where it does in an instance of
the ancestor whose block it belongs to exactly when the alignment of the block, as the descendant's
side sees it, divides the place where the ancestor's block starts.  For a class and its parent in
one parcel this says when their blocks start at the same place. -/
theorem memberPlace?_eq_iff_align_dvd {r : Registry String} (hb : d.build = .ok h)
    (hs : h.runtimeSpecs target = .ok specs)
    (hr : ({} : Registry String).bootstrap specs = .ok r) (hc : c ∈ h.liveClasses) :
    (∀ a ∈ c.ancestors, ∀ i, a.nonPackageCount ≤ i → i < a.members.length →
      ∃ x y la layout, r.memberPlace? target c i = some x ∧ r.memberPlace? target a i = some y ∧
        r.class? a.name = some la ∧ (c.holder i).ivarsLayout target = .ok layout ∧
          (x = y ↔ layout.align ∣ la.ivarsOffset)) ∧
      ∀ p, c.parent? = some p → p.parcel = c.parcel →
        ∃ lc lp layout, r.class? c.name = some lc ∧ r.class? p.name = some lp ∧
          c.ivarsLayout target = .ok layout ∧
            (lc.ivarsOffset = lp.ivarsOffset ↔ layout.align ∣ lp.ivarsOffset) := by
  cases (bootstrap_runtimeSpecs hb hs).symm.trans hr
  constructor
  · intro a ha i hlow hhigh
    have halive := ancestor_mem_liveClasses hb hc ha
    have hholder := holder_mem_liveClasses hb hc ha hlow hhigh
    obtain ⟨hrun, hp⟩ := sameRun_holder hb hc ha hlow hhigh
    obtain ⟨la, hla⟩ := exists_ivarsLayout hs halive
    obtain ⟨lc, hlc⟩ := exists_ivarsLayout hs hholder
    obtain ⟨o, hoc, hoa⟩ := exists_memberPlace?_eq_add hb hs hc ha hlow hhigh
    refine ⟨_, _, _, lc, hoc, hoa, class?_of_bootstrap hb halive, hlc, ?_⟩
    rw [Nat.add_right_cancel_iff]
    exact hrun.ivarsOffset_eq_iff hp hla hlc
  · intro p hpar hparcel
    have hpmem : p ∈ c.ancestors := List.mem_of_mem_head? hpar
    have hplive := ancestor_mem_liveClasses hb hc hpmem
    obtain ⟨lp, hlp⟩ := exists_ivarsLayout hs hplive
    obtain ⟨lc, hlc⟩ := exists_ivarsLayout hs hc
    have hrun := Class.SameRun.of_parent? hpar (congrArg Parcel.name hparcel)
    exact ⟨_, _, lc, class?_of_bootstrap hb hc, class?_of_bootstrap hb hplive, hlc,
      hrun.ivarsOffset_eq_iff hparcel hlp hlc⟩

end Hierarchy

/-! ## A descendant that moves a block

```text
Base::Root    id at 0                           size 4
App::Shape    block at 4: sides                 size 8
App::Square   block at 8: sides, then width     size 24
```
-/

/-- Two classes of one parcel, the second of which adds a member of a stricter alignment. -/
def shapes : Declarations :=
  { parcels := [{ name := "Base" }, { name := "App" }]
    classes :=
      [{ name := "Base::Root", parcel := "Base", members := [⟨"id", "int32_t"⟩] },
       { name := "App::Shape", parcel := "App", parent := some "Base::Root",
         members := [⟨"sides", "int32_t"⟩] },
       { name := "App::Square", parcel := "App", parent := some "App::Shape",
         members := [⟨"width", "double"⟩] }] }

def shapesHierarchy : Hierarchy := shapes.build.toOption.getD ⟨[], [], []⟩

def shapesSpecs : List (ClassSpec String) := (shapesHierarchy.runtimeSpecs .lp64).toOption.getD []

def shapesRegistry : Registry String :=
  (({} : Registry String).bootstrap shapesSpecs).toOption.getD {}

theorem shapes_build : shapes.build = .ok shapesHierarchy := by decide +kernel

theorem shapes_runtimeSpecs : shapesHierarchy.runtimeSpecs .lp64 = .ok shapesSpecs := by
  decide +kernel

theorem shapes_bootstrap : ({} : Registry String).bootstrap shapesSpecs = .ok shapesRegistry := by
  decide +kernel

theorem shapes_memberPlace?_eq_iff : ∃ c ∈ shapesHierarchy.liveClasses, c.name = "App::Square" ∧
    ∀ a ∈ c.ancestors, ∀ i, a.nonPackageCount ≤ i → i < a.members.length →
      ∃ x y la layout, shapesRegistry.memberPlace? .lp64 c i = some x ∧
        shapesRegistry.memberPlace? .lp64 a i = some y ∧ shapesRegistry.class? a.name = some la ∧
          (c.holder i).ivarsLayout .lp64 = .ok layout ∧
            (x = y ↔ layout.align ∣ la.ivarsOffset) := by
  have hsquare : ∃ c ∈ shapesHierarchy.liveClasses, c.name = "App::Square" := by decide +kernel
  obtain ⟨c, hc, hname⟩ := hsquare
  exact ⟨c, hc, hname,
    (memberPlace?_eq_iff_align_dvd shapes_build shapes_runtimeSpecs shapes_bootstrap hc).1⟩

/-- **A member of the parent's block lies elsewhere in the child,** though both are in one parcel. -/
theorem shapes_block_moves : shapes.build = .ok shapesHierarchy ∧
    shapesHierarchy.runtimeSpecs .lp64 = .ok shapesSpecs ∧
      ({} : Registry String).bootstrap shapesSpecs = .ok shapesRegistry ∧
        ∃ c ∈ shapesHierarchy.liveClasses, ∃ p ∈ c.ancestors, c.parent? = some p ∧
          p.parcel = c.parcel ∧ p.nonPackageCount ≤ 1 ∧ 1 < p.members.length ∧
            (shapesRegistry.class? c.name).map (·.ivarsOffset) = some 8 ∧
              (shapesRegistry.class? p.name).map (·.ivarsOffset) = some 4 ∧
                shapesRegistry.memberPlace? .lp64 c 1 = some 8 ∧
                  shapesRegistry.memberPlace? .lp64 p 1 = some 4 := by
  refine ⟨shapes_build, shapes_runtimeSpecs, shapes_bootstrap, ?_⟩
  decide +kernel

end ClassTables
