import ClassTables.Run.CommandLine
/-!
# The program

Runs the command line on the files of the machine.  A file is written under a temporary name beside
its place and then renamed, so that nobody reads half of it.
-/

namespace ClassTables

/-- The cause behind a refusal of the operating system. -/
def FileError.ofRefusal : IO.Error → FileError
  | .noFileOrDirectory .. => .notFound
  | .alreadyExists .. => .fileExists
  | .resourceBusy .. => .busy
  | .inappropriateType _ 20 _ => .notADirectory
  | .inappropriateType _ 21 _ => .isADirectory
  | .invalidArgument _ 36 _ => .nameTooLong
  | e => .other e.toString

/-- Tells whether an operation was refused. -/
def caught {α : Type} (operation : IO α) : IO (Except FileError α) := do
  match ← operation.toBaseIO with
  | .ok a => return .ok a
  | .error e => return .error (.ofRefusal e)

/-- Replaces a file by way of a temporary one beside it. -/
def replaceFile (path text : String) : IO Unit := do
  let temp := Path.join (Path.directory path) (".tmp" ++ toString (← IO.monoNanosNow))
  IO.FS.writeFile temp text
  try IO.FS.rename temp path
  catch e =>
    IO.FS.removeFile temp
    throw e

instance : FileAccess IO where
  readText path := do
    if Path.holdsNul path then return .error .nulInPath
    match ← caught (IO.FS.readBinFile path) with
    | .error e => return .error e
    | .ok contents =>
      match String.fromUTF8? contents with
      | some text => return .ok text
      | none => return .error .notText
  makeDirs path := do
    if Path.holdsNul path then return .error .nulInPath
    caught (IO.FS.createDirAll path)
  place path text := do
    if Path.holdsNul path then return .error .invalidArgument
    caught (replaceFile path text)

end ClassTables

def main (args : List String) : IO UInt32 := do
  let outcome ← ClassTables.commandLine args
  IO.print outcome.stdout
  IO.eprint outcome.stderr
  return outcome.exit.toUInt32
