import ClassTables.Binding.Header
import ClassTables.Output.ParcelFiles
/-!
# Class headers and the header of callbacks

Classes may share a header.  The header declares all of them behind one guard; the header of
callbacks includes every class header once.
-/

namespace ClassTables.Hierarchy

variable (h : Hierarchy)

/-- The classes that a header declares, parents before children. -/
def classesIn (path : String) : List Class := h.classes.filter (·.header == path)

/-- What stands inside the guard of the header of the given classes. -/
def classHeaderBody (first : Class) (rest : List Class) : Fragment :=
  [.includeOwn first.parcel.headerName, .blank] ++ (first :: rest).flatMap (·.headerFragment)

/-- Includes all class headers and defines the callbacks of this project's classes away. -/
def callbacksBody : Fragment :=
  (headersOf h.classes).map .includeOwn ++ [.blank] ++
    (h.classes.filter (!·.included)).flatMap (·.callbackDecs)

end ClassTables.Hierarchy
