import ClassTables.Parcel
import ClassTables.Text.Cut
import ClassTables.Variable
/-!
# The head of a class, and the symbols made from it

For the class `Animal::Dog` in the parcel `Animal`:

| symbol           | spelling                  |
|------------------|---------------------------|
| `structSym`      | `Dog`                     |
| `fullStructSym`  | `animal_Dog`              |
| `fullClassVar`   | `ANIMAL_DOG`              |
| `privacySymbol`  | `C_ANIMAL_DOG`            |
| `fullIvarsStruct`| `animal_DogIVARS`         |
| `fullIvarsFunc`  | `animal_Dog_IVARS`        |
| `fullIvarsOffset`| `animal_Dog_IVARS_OFFSET` |

Structs and class variables are named after the last part of the class name; functions and methods
after the nickname.
-/

namespace ClassTables

/-- What identifies a class: its names, its parcel and its standing. -/
structure ClassHead where
  name : String
  nickname : String
  /-- The path of the header that declares the class. -/
  header : String
  parcel : Parcel
  /-- The class has no instances. -/
  inert : Bool
  included : Bool
  isFinal : Bool
deriving DecidableEq, Repr

/-- The last part of a class name, after the last double colon. -/
def lastPart (name : String) : String :=
  String.ofList (Text.afterLastPair ':' ':' name.toList)

/-- The header path made from a class name: parts become directories. -/
def headerPath (name : String) : String :=
  String.ofList (Text.replacePair ':' ':' ['/'] name.toList) ++ ".h"

namespace ClassHead

variable (c : ClassHead)

def structSym : String := lastPart c.name

def capPrefix : String := c.parcel.capPrefix

def lowerPrefix : String := c.parcel.lowerPrefix

def upperPrefix : String := c.parcel.upperPrefix

def fullStructSym : String := c.lowerPrefix ++ c.structSym

def shortClassVar : String := Text.toUpper c.structSym

/-- The variable that holds the class object. -/
def fullClassVar : String := c.upperPrefix ++ c.shortClassVar

/-- The macro that opens the private struct layout. -/
def privacySymbol : String := "C_" ++ c.fullClassVar

def shortIvarsStruct : String := c.structSym ++ "IVARS"

def fullIvarsStruct : String := c.lowerPrefix ++ c.shortIvarsStruct

def shortIvarsFunc : String := c.nickname ++ "_IVARS"

def fullIvarsFunc : String := c.lowerPrefix ++ c.shortIvarsFunc

def fullIvarsOffset : String := c.fullIvarsFunc ++ "_OFFSET"

/-- The macro that asks for symbols without prefix. -/
def shortNamesMacro : String := c.upperPrefix ++ "USE_SHORT_NAMES"

/-- The macro that makes a symbol of the parcel visible to others. -/
def visible : String := c.upperPrefix ++ "VISIBLE"

/-- A symbol of the class without the prefix of its parcel. -/
def shortSym (name : String) : String := c.nickname ++ "_" ++ name

/-- A symbol of the class, after the prefix in small letters. -/
def fullSym (name : String) : String := c.lowerPrefix ++ c.shortSym name

end ClassHead

/-- The declaration of a variable of a class, without a semicolon. -/
def Variable.globalC (v : Variable) (c : ClassHead) : String :=
  v.type.spelling ++ " " ++ c.fullSym v.name

end ClassTables
