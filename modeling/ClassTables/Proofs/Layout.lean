import ClassTables.Binding.Ivars
import ClassTables.Proofs.Lists
import Mathlib.Algebra.Order.Ring.Nat
/-!
# Rounding up and laying out fields

`roundUp n a` is the least multiple of `a` that is not below `n` (`roundUp_le`).  Fields are laid
out one after the other, so more fields leave the earlier ones where they are
(`IvarsLayout.fields_isPrefix`) and can only make the alignment stricter.
-/

namespace ClassTables

/-! ## Rounding up -/

theorem dvd_roundUp (n a : Nat) : max a 1 ∣ roundUp n a := Dvd.intro_left _ rfl

theorem le_roundUp (n a : Nat) : n ≤ roundUp n a := by
  have hpos : 0 < max a 1 := by omega
  have h : n + (max a 1 - 1) < (n + (max a 1 - 1)) / max a 1 * max a 1 + max a 1 :=
    Nat.lt_div_mul_add hpos
  rw [roundUp]
  omega

theorem roundUp_lt (n a : Nat) : roundUp n a < n + max a 1 := by
  have h := Nat.div_mul_le_self (n + (max a 1 - 1)) (max a 1)
  rw [roundUp]
  omega

/-- Less than one step apart there is one multiple. -/
theorem eq_of_dvd_of_lt_add {x y b : Nat} (hx : b ∣ x) (hy : b ∣ y) (hxy : x < y + b)
    (hyx : y < x + b) : x = y := by
  obtain ⟨k, rfl⟩ := hx
  obtain ⟨l, rfl⟩ := hy
  rw [← Nat.mul_succ] at hxy hyx
  have hkl := Nat.lt_of_mul_lt_mul_left hxy
  have hlk := Nat.lt_of_mul_lt_mul_left hyx
  rw [show k = l by omega]

/-- **It is the least multiple** that is not below the number. -/
theorem roundUp_le {n a m : Nat} (hdvd : max a 1 ∣ m) (hle : n ≤ m) : roundUp n a ≤ m := by
  have hlt := roundUp_lt n a
  by_contra hover
  have heq := eq_of_dvd_of_lt_add (dvd_roundUp n a) hdvd (by omega) (by omega)
  omega

/-- **A stricter alignment rounds to the same place exactly when that place is a multiple of it.** -/
theorem roundUp_eq_roundUp_iff {n a b : Nat} (hab : a ≤ b) :
    roundUp n b = roundUp n a ↔ max b 1 ∣ roundUp n a := by
  constructor
  · intro h
    rw [← h]
    exact dvd_roundUp n b
  · intro h
    have ha := roundUp_lt n a
    have hb := roundUp_lt n b
    have hna := le_roundUp n a
    have hnb := le_roundUp n b
    exact eq_of_dvd_of_lt_add (dvd_roundUp n b) h (by omega) (by omega)

/-! ## Fields -/

namespace IvarsLayout

@[simp] theorem finish_fields (l : IvarsLayout) : l.finish.fields = l.fields := rfl

@[simp] theorem finish_align (l : IvarsLayout) : l.finish.align = l.align := rfl

theorem size_le_push (l : IvarsLayout) (f : String × Extent) : l.size ≤ (l.push f).size :=
  (le_roundUp l.size f.2.align).trans (Nat.le_add_right _ _)

theorem size_le_foldl_push : ∀ (fs : List (String × Extent)) (l : IvarsLayout),
    l.size ≤ (fs.foldl push l).size
  | [], _ => Nat.le_refl _
  | f :: fs, l => (size_le_push l f).trans (size_le_foldl_push fs (l.push f))

theorem push_align_le (l : IvarsLayout) (f : String × Extent) : l.align ≤ (l.push f).align :=
  Nat.le_max_left _ _

theorem align_le_foldl_push : ∀ (fs : List (String × Extent)) (l : IvarsLayout),
    l.align ≤ (fs.foldl push l).align
  | [], _ => Nat.le_refl _
  | f :: fs, l => (push_align_le l f).trans (align_le_foldl_push fs (l.push f))

theorem fields_isPrefix_foldl_push : ∀ (fs : List (String × Extent)) (l : IvarsLayout),
    l.fields <+: (fs.foldl push l).fields
  | [], _ => List.prefix_rfl
  | f :: fs, l => (List.prefix_append _ _).trans (fields_isPrefix_foldl_push fs (l.push f))

theorem length_foldl_push : ∀ (fs : List (String × Extent)) (l : IvarsLayout),
    (fs.foldl push l).fields.length = l.fields.length + fs.length
  | [], _ => rfl
  | f :: fs, l => by
      rw [List.foldl_cons, length_foldl_push fs, push, List.length_append, List.length_cons,
        List.length_cons]
      simp only [List.length_nil]
      omega

theorem length_ofFields (fs : List (String × Extent)) :
    (ofFields fs).fields.length = fs.length := by
  rw [ofFields, finish_fields, length_foldl_push]
  exact Nat.zero_add _

/-- **Fields stay where they are when more follow.** -/
theorem fields_isPrefix (fs gs : List (String × Extent)) :
    (ofFields fs).fields <+: (ofFields (fs ++ gs)).fields := by
  rw [ofFields, ofFields, List.foldl_append, finish_fields, finish_fields]
  exact fields_isPrefix_foldl_push gs _

theorem align_le_ofFields (fs gs : List (String × Extent)) :
    (ofFields fs).align ≤ (ofFields (fs ++ gs)).align := by
  rw [ofFields, ofFields, List.foldl_append, finish_align, finish_align]
  exact align_le_foldl_push gs _

/-- An alignment is at least one. -/
theorem one_le_align (fs : List (String × Extent)) : 1 ≤ (ofFields fs).align :=
  align_le_foldl_push fs {}

end IvarsLayout

/-! ## Fields in their places -/

namespace IvarsLayout

/-- A place in a layout that suits a field: of its name and size, aligned, and inside the block. -/
structure Suits (l : IvarsLayout) (f : String × Extent) (p : FieldPlace) : Prop where
  name : p.name = f.1
  size : p.size = f.2.size
  aligned : max f.2.align 1 ∣ p.offset
  inside : p.offset + p.size ≤ l.size
  align_le : f.2.align ≤ l.align

/-- A layout that gives each field a place, one behind the other. -/
structure LaidOut (fs : List (String × Extent)) (l : IvarsLayout) : Prop where
  suits : List.Forall₂ l.Suits fs l.fields
  apart : l.fields.Pairwise fun p q => p.offset + p.size ≤ q.offset

variable {l l' : IvarsLayout} {fs : List (String × Extent)}

/-- A larger block has room for what a smaller one holds. -/
theorem Suits.mono {f : String × Extent} {p : FieldPlace} (h : l.Suits f p)
    (hsize : l.size ≤ l'.size) (halign : l.align ≤ l'.align) : l'.Suits f p :=
  ⟨h.name, h.size, h.aligned, h.inside.trans hsize, h.align_le.trans halign⟩

theorem laidOut_empty : LaidOut [] {} := ⟨.nil, .nil⟩

/-- A field that is added goes behind the others. -/
theorem LaidOut.push (h : LaidOut fs l) (f : String × Extent) :
    LaidOut (fs ++ [f]) (l.push f) := by
  have hbehind : l.size ≤ roundUp l.size f.2.align := le_roundUp _ _
  constructor
  · apply List.rel_append
    · exact h.suits.imp fun _ _ hsuits => hsuits.mono (size_le_push l f) (push_align_le l f)
    · exact .cons ⟨rfl, rfl, dvd_roundUp _ _, Nat.le_refl _, Nat.le_max_right _ _⟩ .nil
  · show List.Pairwise _ (l.fields ++ [⟨f.1, roundUp l.size f.2.align, f.2.size⟩])
    rw [List.pairwise_append]
    refine ⟨h.apart, List.pairwise_singleton _ _, fun p hp q hq => ?_⟩
    rw [List.mem_singleton] at hq
    subst hq
    -- what is there ends inside the block, and the new field starts behind it
    obtain ⟨_, -, hsuits⟩ := exists_mem_of_forall₂ h.suits.flip hp
    have hinside := hsuits.inside
    show p.offset + p.size ≤ roundUp l.size f.2.align
    omega

/-- **Every field gets a place of its own.** -/
theorem laidOut_foldl_push : ∀ (gs : List (String × Extent)) {fs : List (String × Extent)}
    {l : IvarsLayout}, LaidOut fs l → LaidOut (fs ++ gs) (gs.foldl IvarsLayout.push l)
  | [], fs, l, h => by
      rw [List.append_nil]
      exact h
  | g :: gs, fs, l, h => by
      have hpush := laidOut_foldl_push gs (h.push g)
      rw [List.append_assoc, List.singleton_append] at hpush
      exact hpush

theorem laidOut_ofFields (fs : List (String × Extent)) : LaidOut fs (ofFields fs) := by
  have h := laidOut_foldl_push fs laidOut_empty
  rw [List.nil_append] at h
  exact ⟨h.suits.imp fun _ _ hsuits => hsuits.mono (le_roundUp _ _) (Nat.le_refl _), h.apart⟩

theorem LaidOut.apart_of_ne (h : LaidOut fs l) {j k : Nat} {p q : FieldPlace}
    (hp : l.fields[j]? = some p) (hq : l.fields[k]? = some q) (hne : j ≠ k) :
    p.offset + p.size ≤ q.offset ∨ q.offset + q.size ≤ p.offset := by
  have hapart := List.pairwise_iff_getElem.mp h.apart
  obtain ⟨hj, rfl⟩ := List.getElem?_eq_some_iff.mp hp
  obtain ⟨hk, rfl⟩ := List.getElem?_eq_some_iff.mp hq
  rcases Nat.lt_or_gt_of_ne hne with hlt | hgt
  · exact Or.inl (hapart j k hj hk hlt)
  · exact Or.inr (hapart k j hk hj hgt)

/-! ## Alignments that are powers of two -/

theorem isPowerOfTwo_align_foldl_push : ∀ {fs : List (String × Extent)} {l : IvarsLayout},
    (∀ f ∈ fs, f.2.align.isPowerOfTwo) → l.align.isPowerOfTwo →
      (fs.foldl IvarsLayout.push l).align.isPowerOfTwo
  | [], _, _, hl => hl
  | f :: fs, l, hfs, hl => by
      rw [List.forall_mem_cons] at hfs
      apply isPowerOfTwo_align_foldl_push hfs.2
      show (max l.align f.2.align).isPowerOfTwo
      rcases max_choice l.align f.2.align with h | h
      · rw [h]
        exact hl
      · rw [h]
        exact hfs.1

theorem isPowerOfTwo_align (h : ∀ f ∈ fs, f.2.align.isPowerOfTwo) :
    (ofFields fs).align.isPowerOfTwo :=
  isPowerOfTwo_align_foldl_push h ⟨0, rfl⟩

end IvarsLayout

/-- The smaller one of two powers of two divides the other. -/
theorem dvd_of_isPowerOfTwo {a b : Nat} (ha : a.isPowerOfTwo) (hb : b.isPowerOfTwo) (h : a ≤ b) :
    a ∣ b := by
  obtain ⟨i, rfl⟩ := ha
  obtain ⟨j, rfl⟩ := hb
  exact Nat.pow_dvd_pow 2 ((Nat.pow_le_pow_iff_right (by decide)).mp h)

/-! ## The block of a class -/

/-- The fields that hold the given members on a target. -/
abbrev FieldsOf (target : Target) : List Variable → List (String × Extent) → Prop :=
  List.Forall₂ fun v f => f.1 = v.name ∧ v.type.extent? target = some f.2

theorem Class.memberField_eq_ok_iff {c : Class} {target : Target} {v : Variable}
    {f : String × Extent} :
    c.memberField target v = .ok f ↔ f.1 = v.name ∧ v.type.extent? target = some f.2 := by
  rw [Class.memberField]
  cases v.type.extent? target with
  | none => simp
  | some e =>
      obtain ⟨n, e'⟩ := f
      simp [eq_comm]

theorem Class.ensureInstantiable_eq_ok_iff {c : Class} :
    c.ensureInstantiable = .ok () ↔ c.inert = false := by
  rw [Class.ensureInstantiable]
  cases c.inert <;> simp

/-- **When the fields of a block are known, and which these are.** -/
theorem Class.blockFields_eq_ok_iff {c : Class} {target : Target} {fs : List (String × Extent)} :
    c.blockFields target = .ok fs ↔ c.inert = false ∧
      ∃ fields, FieldsOf target c.localMembers fields ∧ fs = c.headFields target ++ fields := by
  rw [Class.blockFields, unit_bind_eq_ok_iff, Class.ensureInstantiable_eq_ok_iff, bind_eq_ok_iff]
  simp only [mapM_eq_ok_iff, Class.memberField_eq_ok_iff]
  refine and_congr_right fun _ => exists_congr fun fields => and_congr_right fun _ => ?_
  exact ⟨fun h => (Except.ok.inj h).symm, fun h => congrArg _ h.symm⟩

/-- When the fields of a block can be put in places, and how. -/
theorem Class.map_blockFields_eq_ok_iff {c : Class} {target : Target} {l : IvarsLayout}
    {place : List (String × Extent) → IvarsLayout} :
    (c.blockFields target).map place = .ok l ↔ c.inert = false ∧
      ∃ fields, FieldsOf target c.localMembers fields ∧ l = place (c.headFields target ++ fields) := by
  rw [map_eq_ok_iff]
  constructor
  · rintro ⟨fs, hfs, rfl⟩
    obtain ⟨hlive, fields, hfields, rfl⟩ := Class.blockFields_eq_ok_iff.mp hfs
    exact ⟨hlive, fields, hfields, rfl⟩
  · rintro ⟨hlive, fields, hfields, rfl⟩
    exact ⟨_, Class.blockFields_eq_ok_iff.mpr ⟨hlive, fields, hfields, rfl⟩, rfl⟩

/-- **When the block of a class can be laid out, and how.** -/
theorem Class.ivarsLayout_eq_ok_iff {c : Class} {target : Target} {l : IvarsLayout} :
    c.ivarsLayout target = .ok l ↔ c.inert = false ∧
      ∃ fields, FieldsOf target c.localMembers fields ∧
        l = .ofFields (c.headFields target ++ fields) := Class.map_blockFields_eq_ok_iff

end ClassTables
