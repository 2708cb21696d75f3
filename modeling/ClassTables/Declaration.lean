/-!
# Declarations

What is declared about parcels and classes, before anything is resolved: names of parcels, parents
and prerequisites are text, and so are the spellings of types.
-/

namespace ClassTables

/-- A name with the spelling of its type. -/
structure TypedName where
  name : String
  type : String
deriving DecidableEq, Repr

/-- A parcel.  Its nickname is its name unless another is given. -/
structure ParcelDecl where
  name : String
  nickname : Option String := none
  /-- Parcels that must be running before this one starts. -/
  prereqs : List String := []
  /-- Another project defines the parcel. -/
  included : Bool := false
deriving DecidableEq, Repr

/-- A function that is not dispatched. -/
structure FunctionDecl where
  name : String
  returns : String := "void"
  params : List TypedName := []
  isInline : Bool := false
deriving DecidableEq, Repr

/-- A method.  The parameters do not include the object that it is called on. -/
structure MethodDecl where
  name : String
  returns : String := "void"
  params : List TypedName := []
  isAbstract : Bool := false
  isFinal : Bool := false
deriving DecidableEq, Repr

/-- A class.  An inert class has no instances. -/
structure ClassDecl where
  name : String
  parcel : String
  nickname : Option String := none
  parent : Option String := none
  /-- The path of the header, when it is not made from the name. -/
  header : Option String := none
  inert : Bool := false
  isFinal : Bool := false
  /-- Another project defines the class. -/
  included : Bool := false
  members : List TypedName := []
  /-- Variables of the class itself. -/
  inertVars : List TypedName := []
  functions : List FunctionDecl := []
  methods : List MethodDecl := []
deriving DecidableEq, Repr

/-- All that is declared for one hierarchy, in declaration order. -/
structure Declarations where
  parcels : List ParcelDecl := []
  classes : List ClassDecl := []
deriving DecidableEq, Repr

namespace Declarations

def addParcel (d : Declarations) (p : ParcelDecl) : Declarations :=
  { d with parcels := d.parcels ++ [p] }

def addClass (d : Declarations) (c : ClassDecl) : Declarations :=
  { d with classes := d.classes ++ [c] }

end Declarations

end ClassTables
