import ClassTables.Text.Cut
/-!
# Paths

A path is text in which slashes separate segments.  Two spellings name the same place when their
*components* agree: empty segments count for nothing, and so does a lone point unless the path
starts with it.  Two points are a component like any name; they are not resolved.

Above a path stand its *ancestors*: the path less its last component, and so on up to the root or
to the empty path.
-/

namespace ClassTables.Path

/-! ## Components -/

/-- A step of a path. -/
inductive Component where
  | root
  /-- A point at the start of the path. -/
  | here
  /-- Two points. -/
  | up
  | name (text : String)
deriving DecidableEq, Repr

/-- Where a kind of component stands in the order of paths. -/
def Component.rank : Component → Nat
  | root => 0
  | here => 1
  | up => 2
  | name _ => 3

/-- The order of components: by kind, and names by their characters. -/
def Component.before : Component → Component → Bool
  | .name a, .name b => a < b
  | c, d => c.rank < d.rank

/-- The order of component lists: at the first difference, and a part before the whole. -/
def before : List Component → List Component → Bool
  | _, [] => false
  | [], _ :: _ => true
  | c :: cs, d :: ds => c.before d || (c == d && before cs ds)

/-- How a path starts: at the root, with a lone point, or with a name. -/
inductive Anchor where
  | root
  | here
  | bare
deriving DecidableEq, Repr

/-- Splits off the characters that anchor a path. -/
def splitAnchor : List Char → Anchor × List Char
  | '/' :: cs => (.root, cs)
  | ['.'] => (.here, [])
  | '.' :: '/' :: cs => (.here, '/' :: cs)
  | cs => (.bare, cs)

/-- The spelling of an anchor. -/
def Anchor.chars : Anchor → List Char
  | root => ['/']
  | here => ['.']
  | bare => []

/-- The stretches between slashes. -/
def segments (cs : List Char) : List (List Char) := Text.pieces (· == '/') cs

/-- Whether a segment after the start counts for nothing. -/
def isIdle (segment : List Char) : Bool := segment == [] || segment == ['.']

/-- The component that a segment stands for, if it counts. -/
def component? (segment : List Char) : Option Component :=
  if isIdle segment then none
  else if segment = ['.', '.'] then some .up
  else some (.name (String.ofList segment))

def Anchor.components : Anchor → List Component
  | root => [.root]
  | here => [.here]
  | bare => []

/-- The steps of a path.  Paths that agree in them are equal as paths. -/
def components (path : String) : List Component :=
  let (anchor, body) := splitAnchor path.toList
  anchor.components ++ (segments body).filterMap component?

example : components "a//b/./c/" = [.name "a", .name "b", .name "c"] := by decide
example : components "./../x" = [.here, .up, .name "x"] := by decide

/-! ## Joining -/

def isAbsolute (path : String) : Bool := path.toList.head? == some '/'

/-- Whether the character with code point zero, which ends every name, stands in a path. -/
def holdsNul (path : String) : Bool := path.toList.contains '\x00'

def endsWithSlash (path : String) : Bool := path.toList.getLast? == some '/'

/-- The place that `path` names when `base` is the directory it is read from. -/
def join (base path : String) : String :=
  if isAbsolute path then path
  else if base.isEmpty || endsWithSlash base then base ++ path
  else base ++ "/" ++ path

example : join "out" "a.h" = "out/a.h" ∧ join "out/" "" = "out/" ∧ join "out" "/a" = "/a" := by
  decide

/-! ## Ancestors -/

/-- Drops the idle segments at the end; the list is reversed. -/
def dropIdle (reversed : List (List Char)) : List (List Char) := reversed.dropWhile isIdle

/-- The path with the given anchor and reversed segments. -/
def spell (anchor : Anchor) (reversed : List (List Char)) : String :=
  String.ofList (anchor.chars ++ Text.joinPieces ['/'] reversed.reverse)

/-- The paths above the anchored path with the given reversed segments, nearest first. -/
def above (anchor : Anchor) : List (List Char) → List String
  | [] =>
    match anchor with
    | .here => [""]
    | _ => []
  | s :: rest => if isIdle s then above anchor rest else spell anchor (dropIdle rest) :: above anchor rest

/-- The paths that remain when components are dropped from the end, nearest first. -/
def ancestors (path : String) : List String :=
  let (anchor, body) := splitAnchor path.toList
  above anchor (segments body).reverse

/-- The path less its last component; the root and the empty path have none. -/
def parent? (path : String) : Option String := (ancestors path).head?

example : ancestors "a//b/./c/" = ["a//b", "a", ""] := by decide
example : ancestors "./x" = [".", ""] ∧ ancestors "//x/y" = ["//x", "/"] := by decide
example : parent? "/." = none ∧ parent? "." = some "" ∧ parent? "" = none := by decide

end ClassTables.Path
