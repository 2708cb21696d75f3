import ClassTables.Files.Tree
/-!
# Access to files

What a program needs of a file system, so that one program runs on the files of the machine and on
a `FileTree`.
-/

namespace ClassTables

/-- The operations on files that a program in `m` may use. -/
class FileAccess (m : Type → Type) where
  readText : String → m (Except FileError String)
  /-- Makes a directory and those above it, as far as they are missing. -/
  makeDirs : String → m (Except FileError Unit)
  /-- Puts a text in place of whatever file has the path.  The directory of the path exists. -/
  place : String → String → m (Except FileError Unit)

namespace FileAccess

instance : FileAccess (StateM FileTree) where
  readText path := do return (← get).readText path
  makeDirs path := do
    let (result, t) := (← get).makeDirs path
    set t
    return result
  place path text := do
    match (← get).place path text.toUTF8 with
    | .ok t =>
      set t
      return .ok ()
    | .error e => return .error e

/-- A file operation as a step that may fail, its failure told in the words of the program. -/
def attempt {m : Type → Type} [Monad m] {ε α : Type} (tell : FileError → ε)
    (step : m (Except FileError α)) : ExceptT ε m α :=
  ExceptT.mk do return (← step).mapError tell

end FileAccess

end ClassTables
