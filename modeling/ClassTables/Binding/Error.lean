import ClassTables.Files.Error
import ClassTables.Text.Name
/-!
# Why bindings cannot be generated
-/

namespace ClassTables

/-- A failure to generate or to store output. -/
inductive BindingError where
  | inertClass (name : String)
  | unknownLayout (cls member type : String)
  | unknownHeader (path : String)
  | unwritable (path : String) (cause : FileError)
deriving DecidableEq, Repr

/-- The message of the failure itself; what caused it is told apart. -/
def BindingError.message : BindingError → String
  | inertClass c => "inert class " ++ Text.name c ++ " has no instance layout or method table"
  | unknownLayout c m t =>
    "no size known for member " ++ Text.name m ++ " of type " ++ Text.name t ++ " in class " ++
      Text.name c
  | unknownHeader p => "no class is declared in header " ++ Text.name p
  | unwritable p _ => "failed to write " ++ Text.name p

end ClassTables
