import ClassTables.Binding.Data
import ClassTables.Bootstrap.Parcel
import ClassTables.Hierarchy.Basic
/-!
# Specifications for the runtime

The same classes and parcels that become C tables, as specifications that the registry can load.
Implementations are the names of the implementing functions.

A specification holds one number that is a sum, the size of the block of members.  `runtimeSpec` has
it without bound and `runtimeSpec32` as the program computes it, in 32 bits.  They are equal for a block
shorter than `2 ^ 32` bytes, and differ in nothing but this number for a longer one.
-/

namespace ClassTables

namespace MethodBinding

/-- The slot of the method, named. -/
def namedSlot (b : MethodBinding) : NamedSlot String :=
  ⟨b.method.name, if b.method.isAbstract then .abstract else .implemented b.impFunc⟩

end MethodBinding

/-- The specification of a class whose block of members has the given layout. -/
def Class.specWith (c : Class) (layout : IvarsLayout) : ClassSpec String :=
  let spec : ClassSpec String :=
    { name := c.name
      parcel := c.parcel.name
      parent := c.parent?.map (·.name)
      novel := (c.bindingsOfKind .novel).map (·.namedSlot)
      overridden := (c.bindingsOfKind .overridden).map (·.namedSlot)
      inherited := (c.bindingsOfKind .inherited).map (·.method.name) }
  spec.withIvars layout.size layout.align

/-- The specification of a class on a target. -/
def Class.runtimeSpec (c : Class) (target : Target) : Except BindingError (ClassSpec String) :=
  (c.ivarsLayout target).map c.specWith

/-- The specification of a class on a target, with the size of its block in sums of 32 bits. -/
def Class.runtimeSpec32 (c : Class) (target : Target) : Except BindingError (ClassSpec String) :=
  (c.ivarsLayout32 target).map c.specWith

namespace Hierarchy

variable (h : Hierarchy) (p : Parcel) (target : Target)

/-- The specification of a parcel with the given classes: the parcels it inherits from and its
prerequisites.  It has no initializer of its own. -/
def parcelSpec (classes : List (ClassSpec String)) : ParcelSpec String :=
  { name := p.name
    inherited := (h.inheritedParcels p).map (·.name)
    prereqs := (h.prereqsOf p).map (·.name)
    classes }

/-- The specification of a parcel on a target, with its classes that have instances. -/
def runtimeParcel : Except BindingError (ParcelSpec String) := do
  let classes ← ((h.classesOf p).filter (!·.inert)).mapM (·.runtimeSpec target)
  return h.parcelSpec p classes

/-- The specification of a parcel on a target, with sizes in sums of 32 bits. -/
def runtimeParcel32 : Except BindingError (ParcelSpec String) := do
  let classes ← ((h.classesOf p).filter (!·.inert)).mapM (·.runtimeSpec32 target)
  return h.parcelSpec p classes

end Hierarchy

end ClassTables
