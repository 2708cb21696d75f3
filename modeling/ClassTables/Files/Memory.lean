import ClassTables.Files.Path
/-!
# Files in memory

Texts under paths, in the order of paths.  Paths are told apart by their components; an entry keeps
the spelling of its first write.
-/

namespace ClassTables

structure MemoryFiles where
  /-- Paths with their texts, in strictly increasing order of the paths. -/
  entries : List (String × String) := []
deriving DecidableEq, Repr

namespace MemoryFiles

/-- Sets the text of a path in a list of entries. -/
def insert (path text : String) : List (String × String) → List (String × String)
  | [] => [(path, text)]
  | e :: es =>
    if Path.components e.1 = Path.components path then (e.1, text) :: es
    else if Path.before (Path.components path) (Path.components e.1) then (path, text) :: e :: es
    else e :: insert path text es

/-- Stores a text, in place of any stored under the same path. -/
def write (files : MemoryFiles) (path text : String) : MemoryFiles :=
  ⟨insert path text files.entries⟩

/-- The text last stored under a path. -/
def get? (files : MemoryFiles) (path : String) : Option String :=
  (files.entries.find? fun e => Path.components e.1 == Path.components path).map (·.2)

def size (files : MemoryFiles) : Nat := files.entries.length

def isEmpty (files : MemoryFiles) : Bool := files.entries.isEmpty

example :
    (((({} : MemoryFiles).write "a.h" "1").write "a/b" "2").write "a//b" "3").entries =
      [("a/b", "3"), ("a.h", "1")] := by decide

end MemoryFiles

end ClassTables
