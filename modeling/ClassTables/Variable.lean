import ClassTables.CType
/-!
# Variables and parameter lists
-/

namespace ClassTables

/-- A name with its type: a member, a variable of a class or a parameter. -/
structure Variable where
  name : String
  type : CType
deriving DecidableEq, Repr

namespace Variable

/-- The declaration as a struct field. -/
def fieldLine (v : Variable) : String := v.type.spelling ++ " " ++ v.name ++ ";"

/-- The declaration as a parameter. -/
def paramText (v : Variable) : String := v.type.spelling ++ " " ++ v.name

end Variable

/-- Parameters in call order. -/
abbrev Params := List Variable

namespace Params

/-- The parameter declarations; an empty list is spelled `void`. -/
def toC (ps : Params) : String :=
  if ps.isEmpty then "void" else ", ".intercalate (ps.map Variable.paramText)

/-- The names, as the arguments of a call that passes the parameters on. -/
def nameList (ps : Params) : String := ", ".intercalate (ps.map (·.name))

def get? (ps : Params) (name : String) : Option Variable := ps.find? (·.name == name)

end Params

end ClassTables
