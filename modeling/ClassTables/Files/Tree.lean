import ClassTables.Files.Error
import ClassTables.Files.Path
/-!
# A tree of files

Directories and files of one machine, as far as reading, making directories and replacing files
can tell them apart.  A path leads to a *position* in the tree, from the root or from the working
directory.  Unlike the components of a path, the way is walked: every step but the last must lead to
a directory, and two points lead to the directory above.
-/

namespace ClassTables

/-- What stands under a name. -/
inductive Node where
  | dir (entries : List (String × Node))
  | file (contents : ByteArray)

namespace Node

def isDir : Node → Bool
  | dir _ => true
  | file _ => false

def entry? (n : Node) (name : String) : Option Node :=
  match n with
  | dir entries => entries.lookup name
  | file _ => none

/-- Puts a node under a name in a directory. -/
def setEntry (n : Node) (name : String) (new : Node) : Node :=
  match n with
  | dir entries => dir ((name, new) :: entries.filter (·.1 != name))
  | file contents => file contents

mutual
/-- The files from a node down, each with the names that lead to it. -/
def files : Node → List (List String × ByteArray)
  | dir entries => filesIn entries
  | file contents => [([], contents)]

def filesIn : List (String × Node) → List (List String × ByteArray)
  | [] => []
  | e :: es => (e.2.files.map fun f => (e.1 :: f.1, f.2)) ++ filesIn es
end

end Node

/-- A node with the way from the root down to it. -/
structure Position where
  node : Node
  /-- The directories passed on the way with the names taken in them, nearest first. -/
  above : List (String × Node) := []

namespace Position

/-- The directory above; the root is above itself. -/
def up (p : Position) : Position :=
  match p.above with
  | [] => p
  | (_, n) :: rest => ⟨n, rest⟩

/-- The position of a node that stands under a name in the directory at the position. -/
def below (p : Position) (name : String) (n : Node) : Position := ⟨n, (name, p.node) :: p.above⟩

/-- The root of the tree in which the node stands at its position. -/
def rebuilt (p : Position) : Node := p.above.foldl (fun n a => a.2.setEntry a.1 n) p.node

/-- Fails unless a directory is at the position. -/
def checkDir (p : Position) : Except FileError Unit :=
  if p.node.isDir then .ok () else .error .notADirectory

/-- No name has more bytes. -/
def maxNameBytes : Nat := 255

/-- The node under a name in a directory, if there is one. -/
def entry? (p : Position) (name : String) : Except FileError (Option Node) :=
  if maxNameBytes < name.utf8ByteSize then .error .nameTooLong else .ok (p.node.entry? name)

/-- Follows steps down from a position. -/
def walk : Position → List String → Except FileError Position
  | p, [] => .ok p
  | p, s :: rest => do
    p.checkDir
    if s = "." then p.walk rest
    else if s = ".." then p.up.walk rest
    else
      match ← p.entry? s with
      | none => .error .notFound
      | some n => (p.below s n).walk rest

end Position

structure FileTree where
  /-- The root, which is always a directory. -/
  root : Node := .dir []
  /-- The directory from which paths start that are not absolute, by the names from the root. -/
  workDir : List String := []

namespace FileTree

/-! ## Walking -/

/-- Every path has fewer bytes. -/
def pathLimit : Nat := 4096

/-- Refuses paths that no lookup starts with. -/
def checkPath (path : String) : Except FileError Unit :=
  if Path.holdsNul path then .error .nulInPath
  else if path.isEmpty then .error .notFound
  else if pathLimit ≤ path.utf8ByteSize then .error .nameTooLong
  else .ok ()

/-- The segments of a path that count on the way. -/
def steps (path : String) : List String :=
  ((Path.segments path.toList).filter (· != [])).map String.ofList

/-- The working directory, or as much of the way to it as there is. -/
def workPosition (t : FileTree) : Position :=
  t.workDir.foldl (fun p name => ((p.node.entry? name).map (p.below name)).getD p) ⟨t.root, []⟩

/-- Where the first step of a path is taken. -/
def start (t : FileTree) (path : String) : Position :=
  if Path.isAbsolute path then ⟨t.root, []⟩ else t.workPosition

/-- The node that a path leads to.  A slash at the end asks for a directory. -/
def find (t : FileTree) (path : String) : Except FileError Node := do
  checkPath path
  let p ← (t.start path).walk (steps path)
  if Path.endsWithSlash path then p.checkDir
  return p.node

/-- Where a path leads but for its last step: a directory and a name in it, or nothing when the last
step is no name. -/
def findSlot (t : FileTree) (path : String) : Except FileError (Option (Position × String)) := do
  checkPath path
  match (steps path).reverse with
  | [] => return none
  | last :: before =>
    let p ← (t.start path).walk before.reverse
    p.checkDir
    return if last = "." || last = ".." then none else some (p, last)

/-- The tree with another node under a name in a directory. -/
def putIn (t : FileTree) (p : Position) (name : String) (new : Node) : FileTree :=
  { t with root := { p with node := p.node.setEntry name new : Position }.rebuilt }

/-! ## Reading -/

def readText (t : FileTree) (path : String) : Except FileError String := do
  match ← t.find path with
  | .dir _ => .error .isADirectory
  | .file contents =>
    match String.fromUTF8? contents with
    | some text => .ok text
    | none => .error .notText

def isDir (t : FileTree) (path : String) : Bool :=
  match t.find path with
  | .ok n => n.isDir
  | .error _ => false

/-! ## Making directories -/

def makeDir (t : FileTree) (path : String) : Except FileError FileTree := do
  match ← t.findSlot path with
  | none => .error .fileExists
  | some (p, name) =>
    match ← p.entry? name with
    | some _ => .error .fileExists
    | none => .ok (t.putIn p name (.dir []))

/-- Makes a directory unless there is one. -/
def ensureDir (t : FileTree) (path : String) : Except FileError Unit × FileTree :=
  match t.makeDir path with
  | .ok t' => (.ok (), t')
  | .error e => if t.isDir path then (.ok (), t) else (.error e, t)

/-- Makes the first of the given directories; where the way to it is missing, makes the others
first.  Each path in the list stands above the one before. -/
def ensureDirs (t : FileTree) : List String → Except FileError Unit × FileTree
  | [] => (.ok (), t)
  | path :: above =>
    match t.ensureDir path with
    | (.error .notFound, _) =>
      match t.ensureDirs above with
      | (.ok (), t') => t'.ensureDir path
      | failed => failed
    | done => done

/-- Makes a directory and those above it, as far as they are missing. -/
def makeDirs (t : FileTree) (path : String) : Except FileError Unit × FileTree :=
  t.ensureDirs ((path :: Path.ancestors path).filter (!·.isEmpty))

/-! ## Writing -/

/-- Puts a file in place of whatever file has the path.  The file comes by a renaming, whose refusals
these are. -/
def place (t : FileTree) (path : String) (contents : ByteArray) : Except FileError FileTree := do
  if Path.holdsNul path then throw .invalidArgument
  match ← t.findSlot path with
  | none => .error .busy
  | some (p, name) =>
    let old ← p.entry? name
    if Path.endsWithSlash path then .error .notADirectory
    else if (old.map (·.isDir)).getD false then .error .isADirectory
    else .ok (t.putIn p name (.file contents))

/-! ## Listing -/

/-- All files below the working directory with their paths from there, by path. -/
def files (t : FileTree) : List (String × ByteArray) :=
  (t.workPosition.node.files.map fun f => ("/".intercalate f.1, f.2)).mergeSort
    fun a b => !(b.1 < a.1)

end FileTree

end ClassTables
