import ClassTables.Proofs.Layout
import ClassTables.Proofs.Specs
/-!
# Sums of 32 bits

The sizes of scalars fit in 32 bits, but the places and sizes of blocks are sums, and in 32 bits a sum
that reaches `2 ^ 32` starts over at zero.  The laws of layouts are about sums without bound
(`IvarsLayout.ofFields`).  They are laws of what is computed in 32 bits as long as the block is shorter
than `2 ^ 32` bytes, and only then (`IvarsLayout.ofFields32_eq_iff`): a block grows with every field, so
no sum on the way is larger than the last one.  A parcel whose blocks are all that short has the same
specification either way (`Hierarchy.runtimeParcel32_eq`).

What is no sum does not depend on any of this: the names, sizes and alignments of fields, and all of a
specification but the size of its block (`Class.runtimeSpec32_eq_map`).  So the parents, methods and
slots of classes are the same in both.
-/

namespace ClassTables

theorem wrap32_lt (n : Nat) : wrap32 n < 2 ^ 32 := (UInt32.ofNat n).toNat_lt

theorem wrap32_of_lt {n : Nat} (h : n < 2 ^ 32) : wrap32 n = n := UInt32.toNat_ofNat_of_lt h

/-! ## Fields -/

namespace IvarsLayout

variable {l : IvarsLayout} {f : String × Extent}

theorem push32_eq (h : (l.push f).size < 2 ^ 32) : l.push32 f = l.push f := by
  have hoffset : roundUp l.size f.2.align < 2 ^ 32 := (Nat.le_add_right _ _).trans_lt h
  have hsize : wrap32 (roundUp l.size f.2.align + f.2.size) = (l.push f).size := wrap32_of_lt h
  rw [push32, wrap32_of_lt hoffset, hsize]
  rfl

theorem finish32_eq (h : l.finish.size < 2 ^ 32) : l.finish32 = l.finish := by
  have hsize : wrap32 (roundUp l.size l.align) = l.finish.size := wrap32_of_lt h
  rw [finish32, hsize]
  rfl

/-- While a block grows its sums are at most its size in the end. -/
theorem foldl_push32_eq : ∀ (fs : List (String × Extent)) {l : IvarsLayout},
    (fs.foldl push l).size < 2 ^ 32 → fs.foldl push32 l = fs.foldl push l
  | [], _, _ => rfl
  | f :: fs, l, h => by
      have hpush := push32_eq ((size_le_foldl_push fs (l.push f)).trans_lt h)
      rw [List.foldl_cons, List.foldl_cons, hpush]
      exact foldl_push32_eq fs h

/-- **Sums of 32 bits are right for the blocks that are shorter than `2 ^ 32` bytes,** and for these
only. -/
theorem ofFields32_eq_iff {fs : List (String × Extent)} :
    ofFields32 fs = ofFields fs ↔ (ofFields fs).size < 2 ^ 32 := by
  constructor
  · intro h
    rw [← h]
    exact wrap32_lt _
  · intro h
    have hgrown : (fs.foldl push {}).size < 2 ^ 32 := (le_roundUp _ _).trans_lt h
    rw [ofFields32, foldl_push32_eq fs hgrown]
    exact finish32_eq h

theorem align_foldl_push32 : ∀ (fs : List (String × Extent)) {l l' : IvarsLayout},
    l.align = l'.align → (fs.foldl push32 l).align = (fs.foldl push l').align
  | [], _, _, h => h
  | f :: fs, _, _, h => align_foldl_push32 fs (congrArg (max · f.2.align) h)

/-- An alignment is no sum. -/
theorem ofFields32_align (fs : List (String × Extent)) :
    (ofFields32 fs).align = (ofFields fs).align := align_foldl_push32 fs rfl

end IvarsLayout

/-! ## Classes and parcels -/

namespace Class

variable {c : Class} {target : Target}

/-- The bytes of the block can be counted in 32 bits, so no sum of its layout wraps around. -/
def Fits (c : Class) (target : Target) : Prop :=
  ∀ l, c.ivarsLayout target = .ok l → l.size < 2 ^ 32

/-- **The layout of a class is right in 32 bits exactly where its block fits.** -/
theorem ivarsLayout32_eq_iff : c.ivarsLayout32 target = c.ivarsLayout target ↔ c.Fits target := by
  unfold Fits ivarsLayout32 ivarsLayout
  cases c.blockFields target with
  | error e => exact iff_of_true rfl fun _ h => nomatch h
  | ok fs =>
      constructor
      · rintro h _ ⟨⟩
        exact IvarsLayout.ofFields32_eq_iff.mp (Except.ok.inj h)
      · intro hfits
        exact congrArg Except.ok (IvarsLayout.ofFields32_eq_iff.mpr (hfits _ rfl))

theorem runtimeSpec32_eq (h : c.Fits target) : c.runtimeSpec32 target = c.runtimeSpec target := by
  rw [runtimeSpec32, ivarsLayout32_eq_iff.mpr h, runtimeSpec]

/-- **In 32 bits a specification is the same but for the size of the block.** -/
theorem runtimeSpec32_eq_map : ∃ n < 2 ^ 32, c.runtimeSpec32 target =
    (c.runtimeSpec target).map fun s => { s with ivarsSize := n } := by
  unfold runtimeSpec32 runtimeSpec ivarsLayout32 ivarsLayout
  cases c.blockFields target with
  | error e => exact ⟨0, by decide, rfl⟩
  | ok fs =>
      refine ⟨(IvarsLayout.ofFields32 fs).size, wrap32_lt _, congrArg Except.ok ?_⟩
      rw [specWith_eq, specWith_eq, specOf, IvarsLayout.ofFields32_align]
      rfl

end Class

/-- **The specification of a parcel is right in 32 bits where all its blocks fit.** -/
theorem Hierarchy.runtimeParcel32_eq {h : Hierarchy} {p : Parcel} {target : Target}
    (hfits : ∀ c ∈ h.classesOf p, c.Fits target) :
    h.runtimeParcel32 p target = h.runtimeParcel p target := by
  have hspecs : ((h.classesOf p).filter (!·.inert)).mapM (·.runtimeSpec32 target) =
      ((h.classesOf p).filter (!·.inert)).mapM (·.runtimeSpec target) :=
    mapM_congr fun c hc => Class.runtimeSpec32_eq (hfits c (List.mem_filter.mp hc).1)
  rw [runtimeParcel32, runtimeParcel, hspecs]

end ClassTables
