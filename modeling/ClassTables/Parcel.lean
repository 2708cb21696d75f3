import ClassTables.Text.Case
/-!
# Parcels

A parcel is a named package.  Everything generated for its classes carries a prefix made from its
nickname, in one of three spellings: as it is, in small letters, and in capitals.
-/

namespace ClassTables

structure Parcel where
  name : String
  nickname : String
  /-- Another project defines the parcel: it gets headers and no source. -/
  included : Bool
  /-- Names of the parcels that must be running before this one starts. -/
  prereqs : List String
deriving DecidableEq, Repr

/-- The prefix of the parcel that holds the object system itself. -/
def corePrefix : String := "cfish_"

namespace Parcel

/-- The nickname and an underscore, such as `Animal_`. -/
def capPrefix (p : Parcel) : String := p.nickname ++ "_"

/-- Such as `animal_`. -/
def lowerPrefix (p : Parcel) : String := Text.toLower p.capPrefix

/-- Such as `ANIMAL_`. -/
def upperPrefix (p : Parcel) : String := Text.toUpper p.capPrefix

/-- The macro that is defined while the parcel's own sources are compiled. -/
def privacySymbol (p : Parcel) : String := "CFP_" ++ Text.toUpper p.nickname

/-- Whether this is the parcel of the object system, whose classes hold the object header. -/
def isCore (p : Parcel) : Bool := p.lowerPrefix == corePrefix

end Parcel

end ClassTables
