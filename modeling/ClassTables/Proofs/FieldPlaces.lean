import ClassTables.Proofs.MemberPlaces
/-!
# Every field has its own place

An instance holds the members of its class and, in every block that a class of the core parcel
contributes, the two pointers of an object header.  The class places the fields of its own block, and
leaves the others to its nearest ancestor of another parcel, which may do the same: a lineage can
leave a parcel and come back to it.

On a target whose scalars have powers of two as their sizes no two of these fields overlap, each
starts at a multiple of its alignment, and all of them lie within the size of the instance
(`fields_arranged_of_build`).  The proof goes up the blocks of a lineage: what the ancestor has placed
ends before the block of the class starts.  It counts without bound: sums that wrap around make fields
overlap.
-/

namespace ClassTables

/-! ## Targets -/

def Target.PowersOfTwo (t : Target) : Prop := ∀ n ∈ t.sizes, n.isPowerOfTwo

/-- An extent as scalars have it. -/
structure Extent.Scalar (e : Extent) : Prop where
  size : e.size.isPowerOfTwo
  align : e.align = e.size

theorem Extent.Scalar.natural {n : Nat} (h : n.isPowerOfTwo) : (Extent.natural n).Scalar := ⟨h, rfl⟩

theorem Extent.Scalar.pos {e : Extent} (h : e.Scalar) : 0 < e.size := Nat.pos_of_isPowerOfTwo h.size

/-- A scalar has one of the sizes that a target decides, or one that is the same on all targets. -/
theorem CType.scalarSize?_mem {target : Target} {s : String} {n : Nat}
    (h : CType.scalarSize? target s = some n) : n ∈ target.sizes ++ [1, 4, 8] := by
  unfold scalarSize? at h
  unfold Target.sizes
  grind

theorem CType.scalarSize?_isPowerOfTwo {target : Target} (hpow : target.PowersOfTwo) {s : String}
    {n : Nat} (h : CType.scalarSize? target s = some n) : n.isPowerOfTwo := by
  have hfixed : ∀ m ∈ [1, 4, 8], m.isPowerOfTwo := by decide
  rcases List.mem_append.mp (scalarSize?_mem h) with hmem | hmem
  · exact hpow n hmem
  · exact hfixed n hmem

theorem CType.extent?_scalar {target : Target} (hpow : target.PowersOfTwo) {t : CType} {e : Extent}
    (h : t.extent? target = some e) : e.Scalar := by
  unfold extent? at h
  split at h
  · cases h
    exact .natural (hpow _ List.mem_cons_self)
  · obtain ⟨n, hn, rfl⟩ := Option.map_eq_some_iff.mp h
    exact .natural (scalarSize?_isPowerOfTwo hpow hn)

/-! ## The fields of an instance -/

/-- A field of an instance: a member, by its index among those of the class, or a pointer of the
object header with which the block of a core class starts. -/
inductive InstanceField where
  | member (i : Nat)
  | head (block : Class) (k : Nat)

namespace Class

/-- The classes whose blocks an instance is made of: the class itself, its nearest ancestor of
another parcel, and so on. -/
def blocks (c : Class) : List Class :=
  c :: match _h : c.foreignAncestor? with
    | none => []
    | some a => a.blocks
termination_by c.above.length
decreasing_by exact above_length_lt ‹_›

variable (target : Target) (c : Class)

/-- An instance of the class has the field. -/
def HasField : InstanceField → Prop
  | .member i => i < c.members.length
  | .head b k => b ∈ c.blocks ∧ k < (b.headFields target).length

/-- The extent of a field on the target. -/
def fieldExtent? : InstanceField → Option Extent
  | .member i => c.members[i]?.bind (·.type.extent? target)
  | .head b k => (b.headFields target)[k]?.map (·.2)

/-- Which field of the class's own block it is, if it is one. -/
def ownIndex? : InstanceField → Option Nat
  | .member i =>
    if c.nonPackageCount ≤ i then some ((c.headFields target).length + (i - c.nonPackageCount))
    else none
  | .head b k => if b = c then some k else none

end Class

/-- Where an instance of a registered class has a field: a class places the fields of its own block,
and leaves any other to its nearest ancestor of another parcel. -/
def Registry.fieldPlace? (r : Registry String) (target : Target) (c : Class) (f : InstanceField) :
    Option Nat :=
  match c.ownIndex? target f with
  | some j =>
    (r.class? c.name).bind fun l => (c.layout target).fields[j]?.map (l.ivarsOffset + ·.offset)
  | none =>
    match _h : c.foreignAncestor? with
    | none => none
    | some a => r.fieldPlace? target a f
termination_by c.above.length
decreasing_by exact Class.above_length_lt ‹_›

section Fields

variable {target : Target} {a c : Class} {f g : InstanceField} {j : Nat}

theorem Class.blocks_of_foreign (ha : c.foreignAncestor? = some a) : c.blocks = c :: a.blocks := by
  rw [Class.blocks]
  split
  · next hnone => exact nomatch ha.symm.trans hnone
  · next b hb =>
      rw [ha] at hb
      cases hb
      rfl

theorem Class.blocks_of_no_foreign (ha : c.foreignAncestor? = none) : c.blocks = [c] := by
  rw [Class.blocks]
  split
  · rfl
  · next b hb => exact nomatch ha.symm.trans hb

theorem Registry.fieldPlace?_of_own {r : Registry String} {l : LoadedClass String}
    (hj : c.ownIndex? target f = some j) (hr : r.class? c.name = some l) :
    r.fieldPlace? target c f =
      (c.layout target).fields[j]?.map (l.ivarsOffset + ·.offset) := by
  rw [Registry.fieldPlace?, hj, hr]
  rfl

theorem Registry.fieldPlace?_of_foreign {r : Registry String} (hj : c.ownIndex? target f = none)
    (ha : c.foreignAncestor? = some a) : r.fieldPlace? target c f = r.fieldPlace? target a f := by
  rw [Registry.fieldPlace?, hj]
  dsimp only
  split
  · next hnone => exact nomatch ha.symm.trans hnone
  · next b hb =>
      rw [ha] at hb
      cases hb
      rfl

/-- Two fields are not the same field of a block. -/
theorem Class.ownIndex?_inj (hf : c.HasField target f) (hg : c.HasField target g)
    (hj : c.ownIndex? target f = some j) (hk : c.ownIndex? target g = some j) : f = g := by
  unfold ownIndex? at hj hk
  unfold HasField at hf hg
  cases f <;> cases g <;> simp only [Option.ite_none_right_eq_some, Option.some.injEq] at hj hk
  case member.member =>
    congr 1
    omega
  case member.head =>
    obtain ⟨rfl, rfl⟩ := hk
    omega
  case head.member =>
    obtain ⟨rfl, rfl⟩ := hj
    omega
  case head.head =>
    obtain ⟨rfl, rfl⟩ := hj
    obtain ⟨rfl, rfl⟩ := hk
    rfl

/-- **A field of another block is a field of the nearest ancestor of another parcel.** -/
theorem Class.exists_foreign_has (hf : c.HasField target f) (hj : c.ownIndex? target f = none) :
    ∃ a, c.foreignAncestor? = some a ∧ a.HasField target f ∧
      c.fieldExtent? target f = a.fieldExtent? target f := by
  unfold ownIndex? at hj
  cases f with
  | member i =>
      simp only [ite_eq_right_iff, reduceCtorEq, imp_false] at hj
      obtain ⟨a, ha, hlt⟩ := exists_foreign_of_lt hj
      refine ⟨a, ha, hlt, ?_⟩
      have hpre := members_isPrefix (List.mem_cons_of_mem c (List.mem_of_find?_eq_some ha))
      show c.members[i]?.bind _ = a.members[i]?.bind _
      rw [List.prefix_iff_getElem?.mp hpre i hlt, List.getElem?_eq_getElem hlt]
  | head b k =>
      simp only [ite_eq_right_iff, reduceCtorEq, imp_false] at hj
      cases ha : c.foreignAncestor? with
      | none =>
          obtain ⟨hb, -⟩ := hf
          rw [blocks_of_no_foreign ha, List.mem_singleton] at hb
          exact absurd hb hj
      | some a =>
          obtain ⟨hb, hk⟩ := hf
          rw [blocks_of_foreign ha, List.mem_cons] at hb
          exact ⟨a, rfl, ⟨hb.resolve_left hj, hk⟩, rfl⟩

/-- A field of the class's own block is one of those that the block is laid out for. -/
theorem Class.exists_blockField {fields : List (String × Extent)}
    (hfields : FieldsOf target c.localMembers fields) (hf : c.HasField target f)
    (hj : c.ownIndex? target f = some j) :
    ∃ x, (c.headFields target ++ fields)[j]? = some x ∧ c.fieldExtent? target f = some x.2 := by
  unfold ownIndex? at hj
  cases f with
  | member i =>
      simp only [Option.ite_none_right_eq_some, Option.some.injEq] at hj
      obtain ⟨hlow, rfl⟩ := hj
      have hlocal : c.localMembers[i - c.nonPackageCount]? = some c.members[i] := by
        rw [localMembers, List.getElem?_drop, Nat.add_sub_cancel' hlow]
        exact List.getElem?_eq_getElem hf
      obtain ⟨x, hx, -, hext⟩ := exists_getElem?_of_forall₂ hfields hlocal
      refine ⟨x, ?_, ?_⟩
      · rw [List.getElem?_append_right (Nat.le_add_right _ _), Nat.add_sub_cancel_left]
        exact hx
      · show c.members[i]?.bind _ = _
        rw [List.getElem?_eq_getElem hf]
        exact hext
  | head b k =>
      simp only [Option.ite_none_right_eq_some, Option.some.injEq] at hj
      obtain ⟨rfl, rfl⟩ := hj
      refine ⟨_, ?_, congrArg (Option.map _) (List.getElem?_eq_getElem hf.2)⟩
      rw [List.getElem?_append_left hf.2]
      exact List.getElem?_eq_getElem hf.2

/-! ## The block of a class on a target of powers of two -/

/-- The fields that a block is laid out for have extents of scalars. -/
theorem Class.scalar_of_mem_blockFields (hpow : target.PowersOfTwo)
    {fields : List (String × Extent)} (hfields : FieldsOf target c.localMembers fields)
    {x : String × Extent} (hx : x ∈ c.headFields target ++ fields) : x.2.Scalar := by
  rcases List.mem_append.mp hx with hx | hx
  · have hpointer : target.pointer.isPowerOfTwo := hpow _ List.mem_cons_self
    unfold headFields at hx
    split at hx
    · rcases List.mem_pair.mp hx with rfl | rfl
      · exact .natural hpointer
      · exact .natural hpointer
    · cases hx
  · obtain ⟨v, -, -, hext⟩ := exists_mem_of_forall₂ hfields.flip hx
    exact CType.extent?_scalar hpow hext

/-- The alignment of a block that can be laid out is a power of two. -/
theorem Class.isPowerOfTwo_align (hpow : target.PowersOfTwo) {l : IvarsLayout}
    (hl : c.ivarsLayout target = .ok l) : l.align.isPowerOfTwo := by
  obtain ⟨-, fields, hfields, rfl⟩ := ivarsLayout_eq_ok_iff.mp hl
  apply IvarsLayout.isPowerOfTwo_align
  intro x hx
  have hscalar := scalar_of_mem_blockFields hpow hfields hx
  rw [hscalar.align]
  exact hscalar.size

/-- **A block has a place for each of its fields.** -/
theorem Class.exists_place_in_block (hpow : target.PowersOfTwo) {l : IvarsLayout}
    (hl : c.ivarsLayout target = .ok l) (hf : c.HasField target f)
    (hj : c.ownIndex? target f = some j) :
    ∃ p e, l.fields[j]? = some p ∧ c.fieldExtent? target f = some e ∧ 0 < e.size ∧
      p.size = e.size ∧ e.align ∣ p.offset ∧ e.align ∣ l.align ∧ p.offset + p.size ≤ l.size := by
  have hblock := isPowerOfTwo_align hpow hl
  obtain ⟨-, fields, hfields, rfl⟩ := ivarsLayout_eq_ok_iff.mp hl
  obtain ⟨x, hx, hext⟩ := exists_blockField hfields hf hj
  have hscalar := scalar_of_mem_blockFields hpow hfields (List.mem_of_getElem? hx)
  obtain ⟨p, hp, hsuits⟩ := exists_getElem?_of_forall₂ (IvarsLayout.laidOut_ofFields _).suits hx
  have halign : x.2.align.isPowerOfTwo := hscalar.align ▸ hscalar.size
  have hone : 1 ≤ x.2.align := Nat.pos_of_isPowerOfTwo halign
  have haligned := hsuits.aligned
  rw [max_eq_left hone] at haligned
  exact ⟨p, x.2, hp, hext, hscalar.pos, hsuits.size, haligned,
    dvd_of_isPowerOfTwo halign hblock hsuits.align_le, hsuits.inside⟩

/-- Two fields of a block lie apart. -/
theorem Class.apart_in_block {l : IvarsLayout} (hl : c.ivarsLayout target = .ok l) {k : Nat}
    {p q : FieldPlace} (hp : l.fields[j]? = some p) (hq : l.fields[k]? = some q) (hne : j ≠ k) :
    p.offset + p.size ≤ q.offset ∨ q.offset + q.size ≤ p.offset := by
  obtain ⟨-, fields, -, rfl⟩ := ivarsLayout_eq_ok_iff.mp hl
  exact (IvarsLayout.laidOut_ofFields _).apart_of_ne hp hq hne

/-- A loaded class has room for its block. -/
theorem Class.ivarsOffset_add_size_le (target : Target) (c : Class) :
    (c.loaded target).ivarsOffset + (c.layout target).size ≤ (c.loaded target).allocSize :=
  le_roundUp _ _

/-- The block of a loaded class starts at a multiple of its alignment. -/
theorem Class.align_dvd_ivarsOffset {l : IvarsLayout} (hl : c.ivarsLayout target = .ok l) :
    l.align ∣ (c.loaded target).ivarsOffset := by
  rw [loaded_ivarsOffset, layout_eq hl]
  cases c.foreignAncestor? with
  | none => exact Nat.dvd_zero _
  | some a =>
      have hone : 1 ≤ l.align := by
        obtain ⟨-, fields, -, rfl⟩ := ivarsLayout_eq_ok_iff.mp hl
        exact IvarsLayout.one_le_align _
      have hdvd := dvd_roundUp (a.loaded target).allocSize (max l.align 1)
      rw [max_eq_left hone, max_eq_left hone] at hdvd
      rw [max_eq_left hone]
      exact hdvd

/-- It starts behind everything that the nearest ancestor of another parcel has. -/
theorem Class.allocSize_le_ivarsOffset (ha : c.foreignAncestor? = some a) :
    (a.loaded target).allocSize ≤ (c.loaded target).ivarsOffset := by
  rw [loaded_ivarsOffset, ha]
  exact le_roundUp _ _

end Fields

/-! ## All fields of an instance -/

/-- An instance has a field at `x`, with the given extent. -/
structure Registry.Puts (r : Registry String) (target : Target) (c : Class) (f : InstanceField)
    (x : Nat) (e : Extent) : Prop where
  place : r.fieldPlace? target c f = some x
  extent : c.fieldExtent? target f = some e

/-- Every field of an instance has a place of its own within the first `size` bytes: at a multiple
of its alignment, and without a byte in common with another field. -/
structure Registry.Arranges (r : Registry String) (target : Target) (c : Class) (size : Nat) :
    Prop where
  placed : ∀ f, c.HasField target f →
    ∃ x e, r.Puts target c f x e ∧ 0 < e.size ∧ e.align ∣ x ∧ x + e.size ≤ size
  apart : ∀ f g, c.HasField target f → c.HasField target g → f ≠ g → ∀ x e y e', r.Puts target c f x e →
    r.Puts target c g y e' → x + e.size ≤ y ∨ y + e'.size ≤ x

section Step

variable {r : Registry String} {target : Target} {a c : Class} {f g : InstanceField}
  {l : IvarsLayout}

/-- Where a field of the class's own block is. -/
theorem Registry.puts_own (hpow : target.PowersOfTwo) (hl : c.ivarsLayout target = .ok l)
    (hr : r.class? c.name = some (c.loaded target)) (hf : c.HasField target f) {j : Nat}
    (hj : c.ownIndex? target f = some j) :
    ∃ p e, l.fields[j]? = some p ∧ r.Puts target c f ((c.loaded target).ivarsOffset + p.offset) e ∧
      p.size = e.size ∧ 0 < e.size ∧ e.align ∣ (c.loaded target).ivarsOffset + p.offset ∧
        (c.loaded target).ivarsOffset + p.offset + e.size ≤ (c.loaded target).allocSize := by
  obtain ⟨p, e, hp, he, hpos, hsize, hoffset, hblock, hinside⟩ :=
    Class.exists_place_in_block hpow hl hf hj
  have hplace := Registry.fieldPlace?_of_own hj hr
  rw [Class.layout_eq hl, hp] at hplace
  have hroom := c.ivarsOffset_add_size_le target
  rw [Class.layout_eq hl] at hroom
  exact ⟨p, e, hp, ⟨hplace, he⟩, hsize, hpos,
    Nat.dvd_add (hblock.trans (Class.align_dvd_ivarsOffset hl)) hoffset, by omega⟩

/-- A field that the class's own block has is there and nowhere else. -/
theorem Registry.Puts.own (hpow : target.PowersOfTwo) (hl : c.ivarsLayout target = .ok l)
    (hr : r.class? c.name = some (c.loaded target)) (hf : c.HasField target f) {j x : Nat} {e : Extent}
    (hj : c.ownIndex? target f = some j) (h : r.Puts target c f x e) :
    ∃ p, l.fields[j]? = some p ∧ x = (c.loaded target).ivarsOffset + p.offset ∧ p.size = e.size := by
  obtain ⟨p, e', hp, hputs, hsize, -⟩ := Registry.puts_own hpow hl hr hf hj
  cases h.place.symm.trans hputs.place
  cases h.extent.symm.trans hputs.extent
  exact ⟨p, hp, rfl, hsize⟩

/-- Any other field is where the nearest ancestor of another parcel has it, before the block of the
class. -/
theorem Registry.Puts.foreign
    (habove : ∀ a, c.foreignAncestor? = some a →
      r.Arranges target a (a.loaded target).allocSize)
    (hf : c.HasField target f) (hj : c.ownIndex? target f = none) {x : Nat} {e : Extent}
    (h : r.Puts target c f x e) :
    ∃ a, c.foreignAncestor? = some a ∧ a.HasField target f ∧ r.Puts target a f x e ∧
      x + e.size ≤ (c.loaded target).ivarsOffset := by
  obtain ⟨a, ha, hfa, hext⟩ := Class.exists_foreign_has hf hj
  have hputs : r.Puts target a f x e :=
    ⟨(Registry.fieldPlace?_of_foreign hj ha).symm.trans h.place, hext.symm.trans h.extent⟩
  obtain ⟨x', e', hputs', -, -, hinside⟩ := (habove a ha).placed f hfa
  cases hputs.place.symm.trans hputs'.place
  cases hputs.extent.symm.trans hputs'.extent
  exact ⟨a, ha, hfa, hputs, hinside.trans (Class.allocSize_le_ivarsOffset ha)⟩

/-- **One block more.**  When the nearest ancestor of another parcel has its fields in their places,
so has the class. -/
theorem Registry.arranges_of_foreign (hpow : target.PowersOfTwo) (hl : c.ivarsLayout target = .ok l)
    (hr : r.class? c.name = some (c.loaded target))
    (habove : ∀ a, c.foreignAncestor? = some a →
      r.Arranges target a (a.loaded target).allocSize) :
    r.Arranges target c (c.loaded target).allocSize := by
  constructor
  · intro f hf
    cases hj : c.ownIndex? target f with
    | some j =>
        obtain ⟨p, e, -, hputs, -, hpos, haligned, hinside⟩ := Registry.puts_own hpow hl hr hf hj
        exact ⟨_, e, hputs, hpos, haligned, hinside⟩
    | none =>
        obtain ⟨a, ha, hfa, hext⟩ := Class.exists_foreign_has hf hj
        obtain ⟨x, e, hputs, hpos, haligned, hinside⟩ := (habove a ha).placed f hfa
        have hstart : (a.loaded target).allocSize ≤ (c.loaded target).ivarsOffset :=
          Class.allocSize_le_ivarsOffset ha
        have hroom := c.ivarsOffset_add_size_le target
        exact ⟨x, e, ⟨(Registry.fieldPlace?_of_foreign hj ha).trans hputs.place,
          hext.trans hputs.extent⟩, hpos, haligned, by omega⟩
  · intro f g hf hg hne x e y e' hx hy
    cases hj : c.ownIndex? target f with
    | some j =>
        obtain ⟨p, hp, rfl, hpsize⟩ := hx.own hpow hl hr hf hj
        cases hk : c.ownIndex? target g with
        | some k =>
            obtain ⟨q, hq, rfl, hqsize⟩ := hy.own hpow hl hr hg hk
            have hjk : j ≠ k := by
              rintro rfl
              exact hne (Class.ownIndex?_inj hf hg hj hk)
            have hapart := Class.apart_in_block hl hp hq hjk
            omega
        | none =>
            obtain ⟨-, -, -, -, hbefore⟩ := hy.foreign habove hg hk
            omega
    | none =>
        obtain ⟨a, ha, hfa, hxa, hbefore⟩ := hx.foreign habove hf hj
        cases hk : c.ownIndex? target g with
        | some k =>
            obtain ⟨q, -, rfl, -⟩ := hy.own hpow hl hr hg hk
            omega
        | none =>
            obtain ⟨b, hb, hgb, hyb, -⟩ := hy.foreign habove hg hk
            cases ha.symm.trans hb
            exact (habove a ha).apart f g hfa hgb hne x e y e' hxa hyb

/-- Members are where `memberPlace?` has them. -/
theorem Registry.fieldPlace?_member {i : Nat} :
    r.fieldPlace? target c (.member i) = r.memberPlace? target c i := by
  induction hn : c.above.length using Nat.strongRecOn generalizing c with
  | ind n ih =>
      by_cases h : c.nonPackageCount ≤ i
      · have hj : c.ownIndex? target (.member i) =
            some ((c.headFields target).length + (i - c.nonPackageCount)) := if_pos h
        rw [Registry.fieldPlace?, hj, Registry.memberPlace?, if_pos h]
        dsimp only
        congr 1
        funext l
        rw [Class.fieldOffset?, Option.map_map]
        rfl
      · have hj : c.ownIndex? target (.member i) = none := if_neg h
        obtain ⟨a, ha, -⟩ := Class.exists_foreign_of_lt h
        rw [Registry.fieldPlace?_of_foreign hj ha, Registry.memberPlace?_of_foreign h ha]
        exact ih _ (hn ▸ Class.above_length_lt ha) rfl

end Step

/-! ## In a hierarchy -/

section Hierarchy

variable {d : Declarations} {h : Hierarchy} {target : Target} {specs : List (ClassSpec String)}

/-- Going up to another parcel and going up to another name of a parcel is the same. -/
theorem foreignAncestor?_eq_find?_parcel (hb : d.build = .ok h) {c : Class}
    (hc : c ∈ h.liveClasses) : c.foreignAncestor? = c.ancestors.find? (·.parcel != c.parcel) := by
  unfold Class.foreignAncestor?
  rw [← List.head?_filter, ← List.head?_filter]
  congr 1
  apply List.filter_congr
  intro a ha
  have hiff : a.parcel.name = c.parcel.name ↔ a.parcel = c.parcel :=
    ⟨parcel_eq_of_name_eq hb (ancestor_mem_liveClasses hb hc ha) hc, congrArg Parcel.name⟩
  simp only [bne, Bool.not_inj_iff, beq_eq_beq]
  exact hiff

/-- All classes of a loaded hierarchy have their fields in their places. -/
theorem arranges_of_mem_liveClasses (hb : d.build = .ok h) (hpow : target.PowersOfTwo)
    (hs : h.runtimeSpecs target = .ok specs) : ∀ {c : Class}, c ∈ h.liveClasses →
      (⟨h.liveClasses.map (·.loaded target)⟩ : Registry String).Arranges target c
        (c.loaded target).allocSize := by
  intro c hc
  -- along the nearest ancestors of other parcels
  induction hn : c.above.length using Nat.strongRecOn generalizing c with
  | ind n ih =>
      obtain ⟨l, hl⟩ := exists_ivarsLayout hs hc
      apply Registry.arranges_of_foreign hpow hl (class?_of_bootstrap hb hc)
      intro a ha
      have halive := ancestor_mem_liveClasses hb hc (List.mem_of_find?_eq_some ha)
      exact ih _ (hn ▸ Class.above_length_lt ha) halive rfl

/-- **Every field has its own place.**  The specifications of a hierarchy load on a target of powers
of two, and then every instance has all its fields, own and inherited ones, in ranges of bytes that
are aligned, have no byte in common and end within the size of the instance. -/
theorem fields_arranged_of_build (hb : d.build = .ok h) (hpow : target.PowersOfTwo)
    (hs : h.runtimeSpecs target = .ok specs) :
    ∃ r, ({} : Registry String).bootstrap specs = .ok r ∧ ∀ c ∈ h.liveClasses,
      ∃ l, r.class? c.name = some l ∧ r.Arranges target c l.allocSize := by
  refine ⟨_, bootstrap_runtimeSpecs hb hs, fun c hc => ⟨_, class?_of_bootstrap hb hc, ?_⟩⟩
  exact arranges_of_mem_liveClasses hb hpow hs hc

end Hierarchy

/-! ## A lineage that comes back to a parcel

```text
Clownfish::Obj    header at 0, 8                      size 16
App::Node         block at 16: flags, weight at 24    size 32
Clownfish::Hook   block at 32: header, data at 48     size 56
App::Leaf         block at 56: shut                   size 64
```
-/

/-- Two parcels that take turns on a lineage. -/
def woven : Declarations :=
  { parcels := [{ name := "Clownfish", nickname := some "Cfish" }, { name := "App" }]
    classes :=
      [{ name := "Clownfish::Obj", parcel := "Clownfish" },
       { name := "App::Node", parcel := "App", parent := some "Clownfish::Obj",
         members := [⟨"flags", "uint8_t"⟩, ⟨"weight", "double"⟩] },
       { name := "Clownfish::Hook", parcel := "Clownfish", parent := some "App::Node",
         members := [⟨"data", "void*"⟩] },
       { name := "App::Leaf", parcel := "App", parent := some "Clownfish::Hook",
         members := [⟨"shut", "bool"⟩] }] }

def wovenHierarchy : Hierarchy := woven.build.toOption.getD ⟨[], [], []⟩

def wovenSpecs : List (ClassSpec String) := (wovenHierarchy.runtimeSpecs .lp64).toOption.getD []

theorem woven_build : woven.build = .ok wovenHierarchy := by decide +kernel

theorem woven_runtimeSpecs : wovenHierarchy.runtimeSpecs .lp64 = .ok wovenSpecs := by
  decide +kernel

theorem lp64_powersOfTwo : Target.lp64.PowersOfTwo := by
  unfold Target.PowersOfTwo
  decide

theorem woven_arranged : ∃ r, ({} : Registry String).bootstrap wovenSpecs = .ok r ∧
    r.classes.map (fun l => (l.name, l.ivarsOffset, l.allocSize)) =
      [("Clownfish::Obj", 0, 16), ("App::Node", 16, 32), ("Clownfish::Hook", 32, 56),
        ("App::Leaf", 56, 64)] ∧
      ∀ c ∈ wovenHierarchy.liveClasses, ∃ l, r.class? c.name = some l ∧
        r.Arranges .lp64 c l.allocSize := by
  have hblocks : (({} : Registry String).bootstrap wovenSpecs).map (fun r =>
      r.classes.map fun l => (l.name, l.ivarsOffset, l.allocSize)) =
        .ok [("Clownfish::Obj", 0, 16), ("App::Node", 16, 32), ("Clownfish::Hook", 32, 56),
          ("App::Leaf", 56, 64)] := by decide +kernel
  obtain ⟨r, hr, hall⟩ :=
    fields_arranged_of_build woven_build lp64_powersOfTwo woven_runtimeSpecs
  rw [hr] at hblocks
  exact ⟨r, hr, Except.ok.inj hblocks, hall⟩

end ClassTables
