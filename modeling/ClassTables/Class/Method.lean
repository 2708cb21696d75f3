import ClassTables.Class.Head
/-!
# Functions and methods

A method belongs to the class that declares it.  Descendants that do not declare it again share
it, so what kind of entry it is depends on the class whose method list is read
(`Method.kindFor`), and so do the symbols it is called by.
-/

namespace ClassTables

/-- A function that is not dispatched. -/
structure Function where
  name : String
  returns : CType
  params : Params
  isInline : Bool
deriving DecidableEq, Repr

/-- How a class came by an entry of its method list. -/
inductive MethodKind where
  /-- The class introduces the method. -/
  | novel
  /-- The class declares again what an ancestor introduced. -/
  | overridden
  /-- The class uses an ancestor's method as it is. -/
  | inherited
deriving DecidableEq, Repr

structure Method where
  name : String
  /-- The class that declares it. -/
  declarer : ClassHead
  returns : CType
  /-- The parameters; the first one is the object that the method is called on. -/
  params : Params
  /-- There is no implementation: a stub reports the call. -/
  isAbstract : Bool
  /-- No descendant may declare it again. -/
  isFinal : Bool
  /-- No ancestor of the declaring class has a method of this name. -/
  isNovel : Bool
deriving DecidableEq, Repr

namespace Method

variable (m : Method)

/-- The attributes as a bit mask: abstract, final, novel. -/
def flags : Nat :=
  (if m.isAbstract then 1 else 0) + (if m.isFinal then 2 else 0) + (if m.isNovel then 4 else 0)

/-- Whether `c` declares the method. -/
def isFreshIn (c : ClassHead) : Bool := m.declarer.name == c.name

def kindFor (c : ClassHead) : MethodKind :=
  if m.isFreshIn c then
    if m.isNovel then .novel else .overridden
  else .inherited

/-! ## Symbols by which `invoker` calls the method -/

variable (invoker : ClassHead)

def shortMethodSym : String := invoker.shortSym m.name

def fullMethodSym : String := invoker.capPrefix ++ m.shortMethodSym invoker

/-- The variable that holds the place of the method in the class table. -/
def fullOffsetSym : String := m.fullMethodSym invoker ++ "_OFFSET"

def fullTypedef : String := m.fullMethodSym invoker ++ "_t"

def shortTypedef : String := m.shortMethodSym invoker ++ "_t"

/-! ## Symbols made from the class that implements the method -/

variable (c : ClassHead)

def shortImpFunc : String := c.shortSym m.name ++ "_IMP"

def impFuncIn : String := c.fullSym m.name ++ "_IMP"

/-- The function that implements the method. -/
def impFunc : String := m.impFuncIn m.declarer

/-- The callback that a host language may put in place of the method. -/
def overrideSym : String := m.declarer.fullSym m.name ++ "_OVERRIDE"

end Method

end ClassTables
