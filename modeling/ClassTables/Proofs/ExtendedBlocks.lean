import ClassTables.Proofs.MemberSplit
/-!
# A subclass extends the block of its parent

A class and its parent in the same parcel share one block: the subclass adds its members behind
those of the parent.  Both blocks are laid out on their own, and each is rounded up to its own
alignment at the end.  A stricter alignment does not round up to more in general (5 goes to 8 in
fours and to 5 in fives).  It does so here, on any target, because a scalar is aligned to its own
size: a field that makes the alignment stricter also makes the block longer by as much
(`IvarsLayout.Outgrows`).  Longer is meant without bound, not of sums that wrap around.
-/

namespace ClassTables

/-! ## More fields -/

namespace IvarsLayout

/-- A block that fields have been added to.  Where they have made its alignment stricter, they have
made it longer by at least as much as the new alignment. -/
structure Outgrows (l l' : IvarsLayout) : Prop where
  size_le : l.size ≤ l'.size
  align_le : l.align ≤ l'.align
  longer : l'.align = l.align ∨ l.size + l'.align ≤ l'.size

variable {l l' l'' : IvarsLayout} {f : String × Extent}

theorem Outgrows.refl (l : IvarsLayout) : l.Outgrows l :=
  ⟨Nat.le_refl _, Nat.le_refl _, Or.inl rfl⟩

theorem Outgrows.trans (h : l.Outgrows l') (h' : l'.Outgrows l'') : l.Outgrows l'' := by
  have hsize := h.size_le
  have hsize' := h'.size_le
  refine ⟨hsize.trans hsize', h.align_le.trans h'.align_le, ?_⟩
  rcases h'.longer with heq | hlong
  · rcases h.longer with heq' | hlong'
    · exact Or.inl (heq.trans heq')
    · exact Or.inr (by omega)
  · exact Or.inr (by omega)

/-- One field more, aligned to its own size. -/
theorem outgrows_push (l : IvarsLayout) (hf : f.2.align = f.2.size) : l.Outgrows (l.push f) := by
  have hoffset := le_roundUp l.size f.2.align
  have hsize : (l.push f).size = roundUp l.size f.2.align + f.2.size := rfl
  refine ⟨by omega, push_align_le l f, ?_⟩
  show max l.align f.2.align = l.align ∨ l.size + max l.align f.2.align ≤ (l.push f).size
  rcases max_choice l.align f.2.align with hmax | hmax
  · exact Or.inl hmax
  · right
    rw [hmax]
    omega

theorem outgrows_foldl_push : ∀ (gs : List (String × Extent)) (l : IvarsLayout),
    (∀ g ∈ gs, g.2.align = g.2.size) → l.Outgrows (gs.foldl push l)
  | [], l, _ => .refl l
  | g :: gs, l, h => by
      obtain ⟨hg, hgs⟩ := List.forall_mem_cons.mp h
      exact (outgrows_push l hg).trans (outgrows_foldl_push gs _ hgs)

/-- What rounding adds is less than the old alignment, and a stricter one has added as much before. -/
theorem Outgrows.finish_size_le (h : l.Outgrows l') (hone : 1 ≤ l.align) :
    l.finish.size ≤ l'.finish.size := by
  show roundUp l.size l.align ≤ roundUp l'.size l'.align
  have hround := le_roundUp l'.size l'.align
  rcases h.longer with heq | hlong
  · rw [heq] at hround ⊢
    exact roundUp_le (dvd_roundUp _ _) (h.size_le.trans hround)
  · have hlt := roundUp_lt l.size l.align
    have hstrict := h.align_le
    omega

/-- **More fields make no smaller block,** whatever the sizes of the scalars. -/
theorem size_le_ofFields (fs : List (String × Extent)) {gs : List (String × Extent)}
    (hgs : ∀ g ∈ gs, g.2.align = g.2.size) : (ofFields fs).size ≤ (ofFields (fs ++ gs)).size := by
  rw [ofFields, ofFields, List.foldl_append]
  exact (outgrows_foldl_push gs _ hgs).finish_size_le (one_le_align fs)

end IvarsLayout

/-! ## The block of a subclass -/

/-- A scalar is aligned to its own size on every target. -/
theorem CType.align_of_extent? {target : Target} {t : CType} {e : Extent}
    (h : t.extent? target = some e) : e.align = e.size := by
  rw [CType.extent?] at h
  split at h
  · cases h
    rfl
  · obtain ⟨n, -, rfl⟩ := Option.map_eq_some_iff.mp h
    rfl

/-- The fields of some of the first members are some of the first fields. -/
theorem FieldsOf.of_isPrefix {target : Target} {vs vs' : List Variable}
    {fs' : List (String × Extent)} (h : FieldsOf target vs' fs') (hpre : vs <+: vs') :
    ∃ fs gs, fs' = fs ++ gs ∧ FieldsOf target vs fs ∧ ∀ g ∈ gs, g.2.align = g.2.size := by
  obtain ⟨ws, rfl⟩ := hpre
  refine ⟨fs'.take vs.length, fs'.drop vs.length, (List.take_append_drop _ _).symm,
    (List.forall₂_take_append _ _ _ h.flip).flip, fun g hg => ?_⟩
  obtain ⟨v, -, -, hext⟩ := exists_mem_of_forall₂ (List.forall₂_drop_append _ _ _ h.flip) hg
  exact CType.align_of_extent? hext

/-- **A block extends the blocks of the ancestors that share it.** -/
theorem Class.SameRun.exists_ivarsLayout {target : Target} {a c : Class} {l : IvarsLayout}
    (h : a.SameRun c) (hp : a.parcel = c.parcel) (hlive : a.inert = false)
    (hl : c.ivarsLayout target = .ok l) :
    ∃ la, a.ivarsLayout target = .ok la ∧ la.fields <+: l.fields ∧ la.size ≤ l.size ∧
      la.align ≤ l.align := by
  obtain ⟨-, fields, hfields, rfl⟩ := Class.ivarsLayout_eq_ok_iff.mp hl
  obtain ⟨fs, gs, rfl, hfs, hgs⟩ := hfields.of_isPrefix h.localMembers_isPrefix
  have hhead : c.headFields target = a.headFields target := by
    rw [Class.headFields, Class.headFields, hp]
  refine ⟨_, Class.ivarsLayout_eq_ok_iff.mpr ⟨hlive, fs, hfs, rfl⟩, ?_⟩
  rw [hhead, ← List.append_assoc]
  exact ⟨IvarsLayout.fields_isPrefix _ gs, IvarsLayout.size_le_ofFields _ hgs,
    IvarsLayout.align_le_ofFields _ gs⟩

/-- **A subclass extends the block of its parent.**  On every target on which the block of a class
has a layout, so has the block of its parent in the same parcel.  The fields of the parent are the
first ones of the class, in the same places, and the class's block is no smaller and no less
strictly aligned. -/
theorem block_extends_parent {d : Declarations} {h : Hierarchy} {target : Target} {c p : Class}
    {l : IvarsLayout} (hb : d.build = .ok h) (hc : c ∈ h.classes) (hp : c.parent? = some p)
    (hparcel : p.parcel = c.parcel) (hl : c.ivarsLayout target = .ok l) :
    ∃ lp, p.ivarsLayout target = .ok lp ∧ lp.fields <+: l.fields ∧ lp.size ≤ l.size ∧
      lp.align ≤ l.align := by
  obtain ⟨hlive, -⟩ := Class.ivarsLayout_eq_ok_iff.mp hl
  have hplive := ancestor_mem_liveClasses hb (mem_liveClasses_iff.mpr ⟨hc, hlive⟩)
    (List.mem_of_mem_head? hp)
  exact (Class.SameRun.of_parent? hp (congrArg Parcel.name hparcel)).exists_ivarsLayout hparcel
    (not_inert_of_live hplive) hl

/-! ## Sizes that are no powers of two

```text
App::Window   title 0..4   shade 4..5                  size 8, in fours
App::Dialog   title 0..4   shade 4..5   modal 5..10    size 10, in fives
```
-/

/-- Scalars of odd sizes, and some that take no room at all. -/
def oddTarget : Target :=
  { pointer := 4, short := 0, int := 3, long := 7, longLong := 6, sizeT := 0, bool := 5 }

theorem dialogs_extend_windows : ∃ c ∈ dialogsHierarchy.classes, ∃ p, c.parent? = some p ∧
    p.parcel = c.parcel ∧ ∃ l, c.ivarsLayout oddTarget = .ok l ∧ l =
      ⟨[⟨"title", 0, 4⟩, ⟨"shade", 4, 1⟩, ⟨"modal", 5, 5⟩], 10, 5⟩ ∧
        ∃ lp, p.ivarsLayout oddTarget = .ok lp ∧ lp.fields <+: l.fields ∧ lp.size ≤ l.size ∧
          lp.align ≤ l.align ∧ lp.size = 8 ∧ lp.align = 4 := by
  have hdialog : ∃ c ∈ dialogsHierarchy.classes, ∃ p ∈ c.ancestors, c.parent? = some p ∧
      p.parcel = c.parcel ∧ c.ivarsLayout oddTarget =
        .ok ⟨[⟨"title", 0, 4⟩, ⟨"shade", 4, 1⟩, ⟨"modal", 5, 5⟩], 10, 5⟩ ∧
          (p.ivarsLayout oddTarget).map (fun l => (l.size, l.align)) = .ok (8, 4) := by
    decide +kernel
  obtain ⟨c, hc, p, -, hp, hparcel, hl, hpl⟩ := hdialog
  obtain ⟨lp, hlp, hpre, hsize, halign⟩ := block_extends_parent dialogs_build hc hp hparcel hl
  rw [hlp] at hpl
  obtain ⟨hpsize, hpalign⟩ := Prod.mk.inj (Except.ok.inj hpl)
  exact ⟨c, hc, p, hp, hparcel, _, hl, rfl, lp, hlp, hpre, hsize, halign, hpsize, hpalign⟩

end ClassTables
