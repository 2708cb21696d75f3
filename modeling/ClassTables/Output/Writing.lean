import ClassTables.Files.Access
import ClassTables.Files.Memory
import ClassTables.Output.Drafts
/-!
# Writing generated files

Files are made and written one after the other, and the first failure ends it.  They go to a file
system or are kept in memory.
-/

namespace ClassTables

/-- The directory that a file stands in. -/
def Path.directory (path : String) : String :=
  match Path.parent? path with
  | some dir => if dir.isEmpty then "." else dir
  | none => "."

variable {m : Type → Type} [Monad m]

namespace OutputFile

/-- Writes a file to a file system, where need be with the directory it stands in. -/
def store [FileAccess m] (f : OutputFile) : ExceptT BindingError m Unit := do
  let dir := Path.directory f.path
  FileAccess.attempt (.unwritable dir) (FileAccess.makeDirs dir)
  FileAccess.attempt (.unwritable f.path) (FileAccess.place f.path f.text)

/-- Keeps a file in memory. -/
def keep (f : OutputFile) : ExceptT BindingError (StateM MemoryFiles) Unit :=
  modify (·.write f.path f.text)

/-- Leaves a file unwritten. -/
def skip (_ : OutputFile) : ExceptT BindingError m Unit := pure ()

end OutputFile

/-- Makes the files one after the other, writes each before the next is made, and returns their
paths.  The first failure, to make a file or to write it, ends this. -/
def Bindings.writeAll (b : Bindings) (write : OutputFile → ExceptT BindingError m Unit)
    (dirs : OutputDirs) : ExceptT BindingError m (List String) :=
  (b.drafts dirs).mapM fun draft? => do
    let draft ← liftExcept draft?
    write draft.print
    return draft.path

end ClassTables
