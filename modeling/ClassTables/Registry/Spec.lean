/-!
# Class specifications

What is known about a class when it is loaded.  Implementations are of any type `F`: the code
generator uses the names of functions.
-/

namespace ClassTables

/-- What a slot of a class table holds. -/
inductive Slot (F : Type) where
  | implemented (f : F)
  /-- Nothing: calling the method is a fault of the program. -/
  | abstract
deriving DecidableEq, Repr

/-- A slot with the name of its method. -/
structure NamedSlot (F : Type) where
  name : String
  slot : Slot F
deriving DecidableEq, Repr

structure ClassSpec (F : Type) where
  name : String
  parcel : String
  parent : Option String := none
  /-- The size of the block of members that the class's parcel adds. -/
  ivarsSize : Nat := 0
  ivarsAlign : Nat := 1
  /-- Methods that the class introduces. -/
  novel : List (NamedSlot F) := []
  /-- Methods of the parent with a new implementation. -/
  overridden : List (NamedSlot F) := []
  /-- Methods of the parent that are used as they are. -/
  inherited : List String := []
deriving DecidableEq, Repr

/-- Sets the size and alignment of the block of members; an alignment is at least one. -/
def ClassSpec.withIvars {F : Type} (s : ClassSpec F) (size align : Nat) : ClassSpec F :=
  { s with ivarsSize := size, ivarsAlign := max align 1 }

end ClassTables
