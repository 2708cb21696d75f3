import ClassTables.Files.Path
/-!
# Output directories
-/

namespace ClassTables

/-- Directories for headers and for sources. -/
structure OutputDirs where
  headers : String
  sources : String
deriving DecidableEq, Repr

namespace OutputDirs

/-- Two directories below a common one. -/
def under (dest : String) : OutputDirs :=
  ⟨Path.join dest "include", Path.join dest "source"⟩

def header (d : OutputDirs) (path : String) : String := Path.join d.headers path

def source (d : OutputDirs) (path : String) : String := Path.join d.sources path

end OutputDirs

end ClassTables
