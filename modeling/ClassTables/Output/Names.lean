import ClassTables.Parcel
/-!
# The names of generated files
-/

namespace ClassTables

/-- The header of what is known about the platform. -/
def platformHeaderName : String := "cfish_platform.h"

/-- The header that defines the callbacks of host languages away. -/
def callbacksName : String := "callbacks.h"

namespace Parcel

variable (p : Parcel)

def headerName : String := p.lowerPrefix ++ "parcel.h"

def sourceName : String := p.lowerPrefix ++ "parcel.c"

/-- The macro that makes a symbol of the parcel visible to others. -/
def visible : String := p.upperPrefix ++ "VISIBLE"

end Parcel

/-! ## Include guards -/

def callbacksGuard : String := "CFCCALLBACKS_H"

def platformGuard : String := "CFISH_PLATFORM_H"

def Parcel.headerGuard (p : Parcel) : String := "CFISH_" ++ p.upperPrefix ++ "PARCEL_H"

/-- A character of a path as a character of a macro name. -/
def guardChar (c : Char) : Char := if c.isAlphanum then c.toUpper else '_'

/-- The guard of a class header: its path in capitals, all but ASCII letters and digits made
underscores. -/
def headerGuard (path : String) : String := "H_" ++ String.ofList (path.toList.map guardChar)

end ClassTables
