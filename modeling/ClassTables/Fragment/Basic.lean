/-!
# Fragments of C

Generated headers and sources are lists of *items*.  An item is one construct of C or of its
preprocessor that prints as one or more complete lines; the spellings inside it are text.  Only
conditional items hold further items, so a fragment is a forest of conditionals.
-/

namespace ClassTables

/-! ## The parts of items -/

/-- What an include line names: a file of this project or one found on the system path. -/
inductive Inclusion where
  | quoted (path : String)
  | angled (path : String)
deriving DecidableEq, Repr

/-- A macro definition.  The name may carry a parameter list. -/
structure Define where
  name : String
  value : Option String
deriving DecidableEq, Repr

/-- The test of a conditional block. -/
inductive CondKind where
  | ifDefined
  | ifUndefined
  | ifHolds
deriving DecidableEq, Repr

/-- The frame of a conditional block. -/
structure CondHead where
  kind : CondKind
  condition : String
  /-- The branches are indented by two spaces. -/
  indented : Bool := false
  /-- The condition is repeated in a comment at the end. -/
  commented : Bool := false
deriving DecidableEq, Repr

/-- A pointer-to-function type with a name. -/
structure FnPointer where
  returns : String
  name : String
  params : String
deriving DecidableEq, Repr

/-- A struct, its fields given as complete lines. -/
structure StructDef where
  name : String
  fields : List String
  /-- The struct is defined together with a type of the same name. -/
  named : Bool := false
deriving DecidableEq, Repr

/-- What stands in front of a function's body. -/
structure FnHead where
  returns : String
  name : String
  params : String
  specifiers : String := ""
deriving DecidableEq, Repr

/-- A statement. -/
inductive Stmt where
  /-- A complete line, with its semicolon. -/
  | line (text : String)
  | cond (test : String) (body : List Stmt)
  | ret (value : Option String)

structure VarDecl where
  type : String
  name : String
  specifiers : String := ""
  init : Option String := none
deriving DecidableEq, Repr

/-- One field of an initializer, with the comment that names it. -/
structure InitField where
  value : String
  comment : Option String := none
deriving DecidableEq, Repr

/-- A row of an array: the fields of a brace initializer. -/
abbrev Initializer := List InitField

structure ArrayDef where
  type : String
  name : String
  rows : List Initializer
  specifiers : String := ""
deriving DecidableEq, Repr

/-! ## Items -/

inductive Item where
  /-- A block comment; each line of the text becomes a line of the comment. -/
  | comment (text : String)
  | blank
  /-- Lines that are printed as they are, at the current indentation. -/
  | raw (text : String)
  | inclusion (i : Inclusion)
  | define (d : Define)
  | cond (head : CondHead) (body : List Item)
  | condElse (head : CondHead) (body otherwise : List Item)
  | typedefStruct (tag name : String)
  | fnPointer (p : FnPointer)
  | structDef (s : StructDef)
  | fnDecl (f : FnHead)
  | fnDef (f : FnHead) (body : List Stmt)
  | var (v : VarDecl)
  | array (a : ArrayDef)

/-- Items in printing order. -/
abbrev Fragment := List Item

namespace Item

/-- The inclusion of a file of this project. -/
def includeOwn (path : String) : Item := .inclusion (.quoted path)

/-- The inclusion of a system header. -/
def includeSystem (path : String) : Item := .inclusion (.angled path)

/-- A macro with a value. -/
def defineAs (name value : String) : Item := .define ⟨name, some value⟩

/-- A macro without a value. -/
def flag (name : String) : Item := .define ⟨name, none⟩

end Item

/-- A row whose fields all carry a comment. -/
def Initializer.ofFields (fields : List (String × String)) : Initializer :=
  fields.map fun f => ⟨f.1, some f.2⟩

end ClassTables
