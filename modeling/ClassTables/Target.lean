/-!
# Targets

The sizes of the C scalar types on the machine that the generated code is compiled for.  They fit in
32 bits.  What is made of them by adding up need not: `roundUp` counts without bound, and `wrap32` says
what 32 bits keep of a number.
-/

namespace ClassTables

/-- Sizes in bytes, each below `2 ^ 32`. -/
structure Target where
  pointer : Nat
  short : Nat
  int : Nat
  long : Nat
  longLong : Nat
  sizeT : Nat
  bool : Nat
deriving DecidableEq, Repr

namespace Target

/-- Longs and pointers of 64 bits. -/
def lp64 : Target :=
  { pointer := 8, short := 2, int := 4, long := 8, longLong := 8, sizeT := 8, bool := 1 }

/-- Ints, longs and pointers of 32 bits. -/
def ilp32 : Target :=
  { pointer := 4, short := 2, int := 4, long := 4, longLong := 8, sizeT := 4, bool := 1 }

/-- The sizes that a target decides. -/
def sizes (t : Target) : List Nat :=
  [t.pointer, t.short, t.int, t.long, t.longLong, t.sizeT, t.bool]

end Target

/-- The room that a value takes and the multiple it must start at, in bytes.  Those of a scalar are one of
the sizes of the target or at most 8, so they fit in 32 bits. -/
structure Extent where
  size : Nat
  align : Nat
deriving DecidableEq, Repr

/-- A scalar is aligned to its own size. -/
def Extent.natural (n : Nat) : Extent := ⟨n, n⟩

/-- The least multiple of `align` that is not below `n`; every number is a multiple of nothing.  It is
taken without bound: a machine word holds it where it fits. -/
def roundUp (n align : Nat) : Nat :=
  (n + (max align 1 - 1)) / max align 1 * max align 1

/-- What 32 bits hold of a number: past `2 ^ 32 - 1` they start over at zero. -/
def wrap32 (n : Nat) : Nat := (UInt32.ofNat n).toNat

end ClassTables
