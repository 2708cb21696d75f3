import ClassTables.Fragment.Basic
import ClassTables.Text.Buffer
import ClassTables.Text.Lines
/-!
# Printing fragments

An item prints as lines at a given indentation (`Item.lines`), and a fragment as the lines of its
items.  The layout is fixed:

- the type that a function returns stands on a line of its own above the name;
- bodies and struct fields are indented by four spaces, indented branches by two;
- an initializer has one field per line, each followed by its comment;
- an empty line carries no indentation.

`Fragment.print` ends every line, and `Fragment.render` tidies the end to a single newline.
-/

namespace ClassTables

/-- A line at indentation `k`. -/
def lineAt (k : Nat) (text : String) : String :=
  if text.isEmpty then "" else Text.spaces k ++ text

/-- The indentation of bodies, fields and rows. -/
def bodyIndent : Nat := 4

/-- The indentation of the branches of an indented conditional. -/
def branchIndent : Nat := 2

/-- Puts specifiers and a space in front, unless there are none. -/
def withSpecifiers (specifiers text : String) : String :=
  if specifiers.isEmpty then text else specifiers ++ " " ++ text

/-! ## Lines of single constructs -/

/-- Breaks up every comment terminator inside a text. -/
def breakTerminators (text : String) : String :=
  String.ofList (Text.replacePair '*' '/' ['*', ' ', '/'] text.toList)

/-- The lines of a block comment around the given lines of text. -/
def commentAround : List String → List String
  | [] => ["/*  */"]
  | [l] => ["/* " ++ l ++ " */"]
  | l :: ls =>
    ("/* " ++ l) :: (ls.map fun l => if l.isEmpty then " *" else " * " ++ l) ++ [" */"]

def commentLines (text : String) : List String :=
  commentAround (Text.lines (breakTerminators text))

def Inclusion.line : Inclusion → String
  | .quoted path => "#include \"" ++ path ++ "\""
  | .angled path => "#include <" ++ path ++ ">"

def Define.line (d : Define) : String :=
  match d.value with
  | some v => "#define " ++ d.name ++ " " ++ v
  | none => "#define " ++ d.name

namespace CondHead

def directive (h : CondHead) : String :=
  match h.kind with
  | .ifDefined => "#ifdef"
  | .ifUndefined => "#ifndef"
  | .ifHolds => "#if"

def openLine (h : CondHead) : String := h.directive ++ " " ++ h.condition

def closeLine (h : CondHead) : String :=
  if h.commented then "#endif /* " ++ h.condition ++ " */" else "#endif"

/-- How much deeper the branches stand. -/
def depth (h : CondHead) : Nat := if h.indented then branchIndent else 0

end CondHead

namespace FnHead

def returnLine (f : FnHead) : String := withSpecifiers f.specifiers f.returns

def nameLine (f : FnHead) : String := f.name ++ "(" ++ f.params ++ ")"

end FnHead

def VarDecl.line (v : VarDecl) : String :=
  let init := match v.init with
    | some e => " = " ++ e
    | none => ""
  withSpecifiers v.specifiers (v.type ++ " " ++ v.name ++ init ++ ";")

def returnText : Option String → String
  | some v => "return " ++ v ++ ";"
  | none => "return;"

mutual

/-- The lines of a statement.  A condition with a lone return stands on one line. -/
def Stmt.lines (k : Nat) : Stmt → List String
  | .line text => [lineAt k text]
  | .ret v => [lineAt k (returnText v)]
  | .cond test [.ret v] => [lineAt k ("if (" ++ test ++ ") \x7b " ++ returnText v ++ " \x7d")]
  | .cond test body =>
    lineAt k ("if (" ++ test ++ ") \x7b") :: (stmtLines (k + bodyIndent) body ++ [lineAt k "\x7d"])

/-- The lines of a list of statements. -/
def stmtLines (k : Nat) : List Stmt → List String
  | [] => []
  | s :: ss => s.lines k ++ stmtLines k ss

end

/-- A field of an initializer, with a comma unless it is the last. -/
def InitField.line (f : InitField) (last : Bool) : String :=
  let value := f.value ++ (if last then "" else ",")
  match f.comment with
  | some c => value ++ " /* " ++ c ++ " */"
  | none => value

/-- The field lines of an initializer. -/
def fieldLines (k : Nat) : Initializer → List String
  | [] => []
  | f :: fs => lineAt k (f.line fs.isEmpty) :: fieldLines k fs

/-- The rows of an array, with commas between them. -/
def rowLines (k : Nat) : List Initializer → List String
  | [] => []
  | row :: rows =>
    lineAt k "\x7b" :: (fieldLines (k + bodyIndent) row ++
      lineAt k (if rows.isEmpty then "\x7d" else "\x7d,") :: rowLines k rows)

/-! ## Lines of items -/

mutual

/-- The lines of an item at indentation `k`. -/
def Item.lines (k : Nat) : Item → List String
  | .comment text => (commentLines text).map (lineAt k)
  | .blank => [""]
  | .raw text => (Text.lines text).map (lineAt k)
  | .inclusion i => [lineAt k i.line]
  | .define d => [lineAt k d.line]
  | .cond h body => lineAt k h.openLine :: (fragmentLines (k + h.depth) body ++ [lineAt k h.closeLine])
  | .condElse h body otherwise =>
    lineAt k h.openLine :: (fragmentLines (k + h.depth) body ++
      lineAt k "#else" :: (fragmentLines (k + h.depth) otherwise ++ [lineAt k h.closeLine]))
  | .typedefStruct tag name => [lineAt k ("typedef struct " ++ tag ++ " " ++ name ++ ";")]
  | .fnPointer p =>
    [lineAt k ("typedef " ++ p.returns), lineAt k ("(*" ++ p.name ++ ")(" ++ p.params ++ ");")]
  | .structDef s =>
    lineAt k ((if s.named then "typedef struct " else "struct ") ++ s.name ++ " \x7b") ::
      (s.fields.map (lineAt (k + bodyIndent)) ++
        [lineAt k (if s.named then "\x7d " ++ s.name ++ ";" else "\x7d;")])
  | .fnDecl f => [lineAt k f.returnLine, lineAt k (f.nameLine ++ ";")]
  | .fnDef f body =>
    lineAt k f.returnLine :: lineAt k (f.nameLine ++ " \x7b") ::
      (stmtLines (k + bodyIndent) body ++ [lineAt k "\x7d"])
  | .var v => [lineAt k v.line]
  | .array a =>
    lineAt k (withSpecifiers a.specifiers (a.type ++ " " ++ a.name ++ "[] = \x7b")) ::
      (rowLines (k + bodyIndent) a.rows ++ [lineAt k "\x7d;"])

/-- The lines of a list of items. -/
def fragmentLines (k : Nat) : List Item → List String
  | [] => []
  | i :: is => i.lines k ++ fragmentLines k is

end

namespace Fragment

/-- The text of a fragment at indentation `k`, every line ended. -/
def printAt (k : Nat) (f : Fragment) : String :=
  String.join ((fragmentLines k f).map (· ++ "\n"))

/-- The text of a fragment, every line ended. -/
def print (f : Fragment) : String := printAt 0 f

/-- The text of a fragment as a file: it ends in one newline. -/
def render (f : Fragment) : String := (Text.Buffer.mk f.print).endLine.text

@[simp] theorem lines_append (k : Nat) (f g : Fragment) :
    fragmentLines k (f ++ g) = fragmentLines k f ++ fragmentLines k g := by
  induction f with
  | nil => simp [fragmentLines]
  | cons i is ih => simp [fragmentLines, ih]

end Fragment

end ClassTables
