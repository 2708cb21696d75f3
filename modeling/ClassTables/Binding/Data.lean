import ClassTables.Binding.Header
/-!
# The data of a class

What the source of a parcel defines for a class: the variables that hold offsets, stubs for abstract
methods, the tables from which the class is loaded, and the variable for the class object.
`ClassRow` is the row that ties these together.  An inert class has no data.
-/

namespace ClassTables

/-- Whether the slot is new or newly filled, and abstract. -/
def MethodBinding.needsStub (b : MethodBinding) : Bool :=
  b.kind != .inherited && b.method.isAbstract

namespace Class

variable (c : Class)

def offsetVars : Fragment :=
  c.bindings.map fun b => .var { type := "size_t", name := b.offsetSym }

def abstractDefs : Fragment :=
  (c.bindings.filter MethodBinding.needsStub).flatMap fun b => [b.abstractMethodDef, .blank]

/-- The bindings of one kind, in slot order. -/
def bindingsOfKind (k : MethodKind) : List MethodBinding := c.bindings.filter (·.kind == k)

/-- The suffix of the array that holds the methods of a kind. -/
def arraySuffix : MethodKind → String
  | .novel => "_NOVEL_METHS"
  | .overridden => "_OVERRIDDEN_METHS"
  | .inherited => "_INHERITED_METHS"

/-- The type of the rows of that array. -/
def rowType : MethodKind → String
  | .novel => "cfish_NovelMethSpec"
  | .overridden => "cfish_OverriddenMethSpec"
  | .inherited => "cfish_InheritedMethSpec"

/-- The row of a method in the array of a kind. -/
def rowOf (b : MethodBinding) : MethodKind → Initializer
  | .novel => b.novelSpec
  | .overridden => b.overriddenSpec
  | .inherited => b.inheritedSpec

/-- The name of the array for the methods of a kind. -/
def arrayName (k : MethodKind) : String := c.fullClassVar ++ arraySuffix k

/-- The array for the methods of a kind, unless there are none. -/
def methodArray (k : MethodKind) : Fragment :=
  let rows := (c.bindingsOfKind k).map (rowOf · k)
  if rows.isEmpty then []
  else
    [.array { type := rowType k, name := c.arrayName k, rows, specifiers := "static const" }, .blank]

def methodArrays : Fragment :=
  c.methodArray .novel ++ c.methodArray .overridden ++ c.methodArray .inherited

/-- The definitions that go into the source of the parcel. -/
def dataFragment : Fragment :=
  if c.inert then []
  else
    titled "Offset from the top of the object at which the IVARS struct\ncan be found."
      [.var { type := "size_t", name := c.fullIvarsOffset }] ++
    titled ("Offsets for method pointers, measured in bytes, from the top\n" ++
      "of this class's singleton object.") c.offsetVars ++
    titled "Define abstract methods of this class." c.abstractDefs ++
    titled "Define the MethSpec structs used during Class initialization." c.methodArrays ++
    titled "Define the pointer to the Class singleton object."
      [.var { type := "cfish_Class", name := "*" ++ c.fullClassVar }]

end Class

/-! ## The row of a class -/

/-- What the loader of classes is told about one class. -/
structure ClassRow where
  name : String
  classVar : String
  /-- The class variable of the parent. -/
  parentVar : Option String
  ivarsSize : String
  ivarsOffset : String
  numNovel : Nat
  numOverridden : Nat
  numInherited : Nat
deriving DecidableEq, Repr

namespace ClassRow

/-- The name of an array of methods, or nothing when it would be empty. -/
def arrayRef (r : ClassRow) (k : MethodKind) (count : Nat) : String :=
  if count = 0 then "NULL" else r.classVar ++ Class.arraySuffix k

def toInitializer (r : ClassRow) : Initializer :=
  .ofFields
    [("&" ++ r.classVar, "class"),
     (match r.parentVar with
      | some v => "&" ++ v
      | none => "NULL", "parent"),
     ("\"" ++ r.name ++ "\"", "name"),
     (r.ivarsSize, "ivars_size"),
     ("&" ++ r.ivarsOffset, "ivars_offset_ptr"),
     (toString r.numNovel, "num_novel"),
     (toString r.numOverridden, "num_overridden"),
     (toString r.numInherited, "num_inherited"),
     (r.arrayRef .novel r.numNovel, "novel_meth_specs"),
     (r.arrayRef .overridden r.numOverridden, "overridden_meth_specs"),
     (r.arrayRef .inherited r.numInherited, "inherited_meth_specs")]

end ClassRow

namespace Class

variable (c : Class)

/-- How many entries of the method list are of a kind. -/
def countOfKind (k : MethodKind) : Nat := (c.methods.filter (c.kindOf · == k)).length

/-- The row of a class that has instances. -/
def row : ClassRow :=
  { name := c.name
    classVar := c.fullClassVar
    parentVar := c.parent?.map (·.fullClassVar)
    ivarsSize := c.ivarsSizeExpr
    ivarsOffset := c.fullIvarsOffset
    numNovel := c.countOfKind .novel
    numOverridden := c.countOfKind .overridden
    numInherited := c.countOfKind .inherited }

/-- The row of a class, or a failure for an inert one. -/
def row? : Except BindingError ClassRow := do
  c.ensureInstantiable
  return c.row

end Class

end ClassTables
