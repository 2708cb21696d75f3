import ClassTables.Binding.Error
import ClassTables.Hierarchy.Error
/-!
# Why a run fails
-/

namespace ClassTables

/-- A failure of a run, with its cause. -/
inductive RunError where
  | manifestUnreadable (path : String) (cause : FileError)
  | manifestMalformed
  | declarations (cause : BuildError)
  /-- The file with the text for the top or the bottom of files. -/
  | textUnreadable (path : String) (cause : FileError)
  | generation (cause : BindingError)
deriving DecidableEq, Repr

/-- The failure and what caused it, each as a message of its own. -/
def BindingError.chain (e : BindingError) : List String :=
  match e with
  | unwritable _ cause => [e.message, cause.message]
  | _ => [e.message]

/-- The head of the chain for faults of a manifest. -/
def manifestFault : String := "invalid class manifest"

/-- The failure and its causes, each as a message of its own. -/
def RunError.chain : RunError → List String
  | manifestUnreadable path cause =>
    [manifestFault, "failed to read manifest " ++ Text.name path, cause.message]
  | manifestMalformed => [manifestFault, "malformed manifest"]
  | declarations cause => [manifestFault, cause.message]
  | textUnreadable path cause => ["failed to read " ++ Text.name path, cause.message]
  | generation cause => "code generation failed" :: cause.chain

/-- A chain of messages as one text. -/
def chainText (chain : List String) : String := ": ".intercalate chain

end ClassTables
