import ClassTables.Text.Name
/-!
# Why declarations make no hierarchy
-/

namespace ClassTables

/-- A fault in the declarations of parcels and classes. -/
inductive BuildError where
  | duplicateParcel (name : String)
  | unknownParcel (parcel referrer : String)
  | duplicateClass (name : String)
  | unknownParent (cls parent : String)
  | cyclicInheritance (name : String)
  | inertClassWithInstanceData (name : String)
  | inheritsFromInert (cls parent : String)
  | overrideOfFinal (cls method : String)
  | incompatibleOverride (cls method : String)
  | duplicateSymbol (cls symbol : String)
deriving DecidableEq, Repr

namespace BuildError

def message : BuildError → String
  | duplicateParcel p => "parcel " ++ Text.name p ++ " is declared more than once"
  | unknownParcel p r => "unknown parcel " ++ Text.name p ++ " referenced by " ++ Text.name r
  | duplicateClass c => "class " ++ Text.name c ++ " is declared more than once"
  | unknownParent c p => "class " ++ Text.name c ++ " has unknown parent " ++ Text.name p
  | cyclicInheritance c => "class " ++ Text.name c ++ " is part of an inheritance cycle"
  | inertClassWithInstanceData c =>
    "inert class " ++ Text.name c ++ " declares member variables or methods"
  | inheritsFromInert c p => "class " ++ Text.name c ++ " inherits from inert class " ++ Text.name p
  | overrideOfFinal c m => "class " ++ Text.name c ++ " overrides final method " ++ Text.name m
  | incompatibleOverride c m =>
    "class " ++ Text.name c ++ " overrides " ++ Text.name m ++ " with a different parameter count"
  | duplicateSymbol c s => "class " ++ Text.name c ++ " declares " ++ Text.name s ++ " more than once"

end BuildError

end ClassTables
