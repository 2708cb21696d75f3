import ClassTables.Binding.Error
import ClassTables.Class.Basic
/-!
# The instance variables of a parcel

An instance holds one block of members per parcel on the lineage of its class.  The block of the
class's own parcel holds the members declared by the class and by the ancestors next to it in that
parcel; its place is known only once every parcel above has been loaded:

```text
animal_Dog instance
┌─────────────────────────────────┐ 0
│ cfish_Obj       CFISH_OBJ_HEAD  │
├─────────────────────────────────┤ animal_Dog_IVARS_OFFSET
│ animal_DogIVARS [ name, breed ] │
└─────────────────────────────────┘
```

Classes of the core parcel start with the object header instead.  `ivarsLayout` places the fields
of the block in order, each at the first multiple of its alignment, and counts bytes without bound.
`ivarsLayout32` does the same in sums of 32 bits, as the program does.  The two agree on every block
shorter than `2 ^ 32` bytes.
-/

namespace ClassTables

/-- The field that stands for the object header. -/
def objHead : String := "CFISH_OBJ_HEAD"

/-! ## Which members -/

namespace Class

variable (c : Class)

/-- The nearest ancestor in another parcel. -/
def foreignAncestor? : Option Class := c.ancestors.find? (·.parcel.name != c.parcel.name)

/-- How many of the first members were declared outside the parcel. -/
def nonPackageCount : Nat := (c.foreignAncestor?.map (·.members.length)).getD 0

/-- The members that the class's own parcel contributes. -/
def localMembers : List Variable := c.members.drop c.nonPackageCount

/-- Whether a struct is defined at all. -/
def hasIvars : Bool := c.parcel.isCore || !c.localMembers.isEmpty

/-- The struct that holds the block: the whole object in the core parcel, else its own struct. -/
def structTag : String := if c.parcel.isCore then c.fullStructSym else c.fullIvarsStruct

/-- The fields of that struct. -/
def structFields : List String :=
  (if c.parcel.isCore then [objHead] else []) ++ c.localMembers.map Variable.fieldLine

/-- The size of the block as an expression of C. -/
def ivarsSizeExpr : String :=
  if c.parcel.isCore then "sizeof(" ++ c.fullStructSym ++ ")"
  else if c.localMembers.isEmpty then "0"
  else "sizeof(" ++ c.fullIvarsStruct ++ ")"

/-- Fails for an inert class, which has no instances. -/
def ensureInstantiable : Except BindingError Unit :=
  if c.inert then .error (.inertClass c.name) else .ok ()

end Class

/-- The layout of a class as far as C decides the sizes. -/
structure LayoutFacts where
  nonPackageCount : Nat
  totalCount : Nat
  localMembers : List Variable
  embedsObjHead : Bool
  hasIvars : Bool
  structTag : String
  structFields : List String
  ivarsSizeExpr : String
deriving DecidableEq, Repr

def Class.layoutFacts (c : Class) : Except BindingError LayoutFacts := do
  c.ensureInstantiable
  return {
    nonPackageCount := c.nonPackageCount
    totalCount := c.members.length
    localMembers := c.localMembers
    embedsObjHead := c.parcel.isCore
    hasIvars := c.hasIvars
    structTag := c.structTag
    structFields := c.structFields
    ivarsSizeExpr := c.ivarsSizeExpr }

/-! ## Where they go on a target -/

/-- A field with its place in the block, in bytes.  The offset is a sum, without bound (`push`) or of 32
bits (`push32`). -/
structure FieldPlace where
  name : String
  offset : Nat
  size : Nat
deriving DecidableEq, Repr

/-- Fields in order, the size they need and the strictest of their alignments.  The size is a sum, as
the offsets of the fields are. -/
structure IvarsLayout where
  fields : List FieldPlace := []
  size : Nat := 0
  align : Nat := 1
deriving DecidableEq, Repr

namespace IvarsLayout

/-- Adds a field at the next multiple of its alignment.  Sums are without bound. -/
def push (l : IvarsLayout) (field : String × Extent) : IvarsLayout :=
  let offset := roundUp l.size field.2.align
  { fields := l.fields ++ [⟨field.1, offset, field.2.size⟩]
    size := offset + field.2.size
    align := max l.align field.2.align }

/-- Pads the size to the alignment of the block. -/
def finish (l : IvarsLayout) : IvarsLayout := { l with size := roundUp l.size l.align }

/-- The block made of the given fields. -/
def ofFields (fields : List (String × Extent)) : IvarsLayout := (fields.foldl push {}).finish

/-! ### In sums of 32 bits -/

/-- Adds a field as `push` does, with sums that wrap around. -/
def push32 (l : IvarsLayout) (field : String × Extent) : IvarsLayout :=
  let offset := wrap32 (roundUp l.size field.2.align)
  { fields := l.fields ++ [⟨field.1, offset, field.2.size⟩]
    size := wrap32 (offset + field.2.size)
    align := max l.align field.2.align }

def finish32 (l : IvarsLayout) : IvarsLayout := { l with size := wrap32 (roundUp l.size l.align) }

/-- The block made of the given fields, as 32 bits add it up. -/
def ofFields32 (fields : List (String × Extent)) : IvarsLayout := (fields.foldl push32 {}).finish32

end IvarsLayout

namespace Class

variable (c : Class) (target : Target)

/-- The fields of the object header: reference count and class pointer. -/
def headFields : List (String × Extent) :=
  if c.parcel.isCore then
    [("refcount", .natural target.pointer), ("klass", .natural target.pointer)]
  else []

/-- The extent of a member. -/
def memberField (v : Variable) : Except BindingError (String × Extent) :=
  match v.type.extent? target with
  | some e => .ok (v.name, e)
  | none => .error (.unknownLayout c.name v.name v.type.spelling)

/-- The fields of the block that the class's parcel contributes. -/
def blockFields : Except BindingError (List (String × Extent)) := do
  c.ensureInstantiable
  let members ← c.localMembers.mapM (c.memberField target)
  return c.headFields target ++ members

/-- The layout of the block, in sums without bound. -/
def ivarsLayout : Except BindingError IvarsLayout := (c.blockFields target).map .ofFields

/-- The layout of the block, in sums of 32 bits. -/
def ivarsLayout32 : Except BindingError IvarsLayout := (c.blockFields target).map .ofFields32

end Class

end ClassTables
