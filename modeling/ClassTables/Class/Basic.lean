import ClassTables.Class.Method
import ClassTables.Declaration
/-!
# Classes and their lineage

A class of a hierarchy is a resolved declaration together with those of its ancestors, nearest
first.  What a class has, as opposed to what it declares, is read off this lineage:

- its members are those of its parent, followed by its own;
- its method list is that of its parent, in which each method it declares again takes the place of
  the inherited one, followed by the methods it introduces.

So an entry keeps its place in the lists of all descendants.
-/

namespace ClassTables

/-- A class declaration with its parcel resolved. -/
structure ClassDef extends ClassHead where
  parentName : Option String
  ownMembers : List Variable
  inertVars : List Variable
  functions : List Function
  ownMethods : List MethodDecl
deriving DecidableEq, Repr

/-- A class and its ancestors, nearest first. -/
structure Class extends ClassDef where
  above : List ClassDef
deriving DecidableEq, Repr

/-! ## Resolving a declaration -/

def TypedName.resolve (v : TypedName) : Variable := ⟨v.name, .ofText v.type⟩

def FunctionDecl.resolve (f : FunctionDecl) : Function :=
  { name := f.name, returns := .ofText f.returns, params := f.params.map TypedName.resolve,
    isInline := f.isInline }

/-- The class that a declaration makes in a parcel. -/
def ClassDecl.resolve (d : ClassDecl) (p : Parcel) : ClassDef :=
  { name := d.name
    nickname := d.nickname.getD (lastPart d.name)
    header := d.header.getD (headerPath d.name)
    parcel := p
    inert := d.inert
    included := d.included
    isFinal := d.isFinal
    parentName := d.parent
    ownMembers := d.members.map TypedName.resolve
    inertVars := d.inertVars.map TypedName.resolve
    functions := d.functions.map FunctionDecl.resolve
    ownMethods := d.methods }

/-! ## Flattened lists -/

/-- The members of the nearest class of a lineage. -/
def memberList : List ClassDef → List Variable
  | [] => []
  | d :: ds => memberList ds ++ d.ownMembers

namespace ClassDef

/-- The method that a declaration makes in a class, given the methods inherited from above.  A
method of a final class is final. -/
def declare (d : ClassDef) (inherited : List Method) (m : MethodDecl) : Method :=
  { name := m.name
    declarer := d.toClassHead
    returns := .ofText m.returns
    params := ⟨"self", .pointerTo d.fullStructSym⟩ :: m.params.map TypedName.resolve
    isAbstract := m.isAbstract
    isFinal := m.isFinal || d.isFinal
    isNovel := !inherited.any (·.name == m.name) }

/-- The methods that the class declares, given those inherited from above. -/
def fresh (d : ClassDef) (inherited : List Method) : List Method :=
  d.ownMethods.map (d.declare inherited)

end ClassDef

/-- Puts a method in the slot of its name, or in a new slot at the end. -/
def install (slots : List Method) (m : Method) : List Method :=
  if slots.any (·.name == m.name) then slots.map fun old => if old.name = m.name then m else old
  else slots ++ [m]

/-- The method list of the nearest class of a lineage. -/
def methodList : List ClassDef → List Method
  | [] => []
  | d :: ds => (d.fresh (methodList ds)).foldl install (methodList ds)

namespace Class

/-- The class and its ancestors, nearest first. -/
def lineage (c : Class) : List ClassDef := c.toClassDef :: c.above

/-- The classes on a lineage, each with what is above it. -/
def ofLineage : List ClassDef → List Class
  | [] => []
  | d :: ds => ⟨d, ds⟩ :: ofLineage ds

/-- Nearest first. -/
def ancestors (c : Class) : List Class := ofLineage c.above

def parent? (c : Class) : Option Class := c.ancestors.head?

/-- All members of an instance, those of the oldest ancestor first. -/
def members (c : Class) : List Variable := memberList c.lineage

/-- The entries of the class table, in slot order. -/
def methods (c : Class) : List Method := methodList c.lineage

/-- The methods that the class declares, in declaration order. -/
def freshMethods (c : Class) : List Method := c.fresh (methodList c.above)

def method? (c : Class) (name : String) : Option Method := c.methods.find? (·.name == name)

def kindOf (c : Class) (m : Method) : MethodKind := m.kindFor c.toClassHead

end Class

end ClassTables
