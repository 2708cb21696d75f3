import ClassTables.Binding.Data
import ClassTables.Output.Bootstrap
import ClassTables.Output.CoreText
import ClassTables.Output.Names
/-!
# The files of a parcel

The header of a parcel declares what its classes share: the macro that makes symbols visible, the
struct types and the bootstrap functions.  Its source defines the data of the classes, the table
from which they are loaded, and those functions.  The functions below give what stands inside the
frame of these files.
-/

namespace ClassTables

namespace Hierarchy

variable (h : Hierarchy) (p : Parcel)

/-! ## The header -/

/-- What the header relies on: for the object system the headers of the platform and of the host,
for any other parcel the headers of its prerequisites. -/
def parcelIncludes : Fragment :=
  if p.isCore then
    [.includeSystem "stdarg.h", .includeSystem "stddef.h", .blank, .includeOwn platformHeaderName,
     .includeOwn "cfish_hostdefs.h"]
  else (h.prereqsOf p).map fun q => .includeSystem q.headerName

/-- Symbols are exported while the parcel itself is compiled, and imported everywhere else. -/
def visibility : Item :=
  .condElse ⟨.ifDefined, p.privacySymbol, true, false⟩ [.defineAs p.visible "CFISH_EXPORT"]
    [.defineAs p.visible "CFISH_IMPORT"]

/-- The struct types of the classes, unless there are none. -/
def structTypes : Fragment :=
  if (h.dynamicClassesOf p).isEmpty then []
  else ((h.dynamicClassesOf p).map fun c => .typedefStruct c.fullStructSym c.fullStructSym) ++ [.blank]

/-- The definitions of the object system, in its own header only. -/
def coreSection : Fragment := if p.isCore then [.raw coreText, .blank] else []

/-- The functions that other parcels call, and the initializer that the user writes. -/
def bootDeclarations : Fragment :=
  [.fnDecl { returns := "void", name := p.bootInheritanceName, params := "void",
             specifiers := p.visible },
   .blank,
   .fnDecl { returns := "void", name := p.bootParcelName, params := "void",
             specifiers := p.visible },
   .blank,
   .fnDecl { returns := "void", name := p.initName, params := "void" }]

/-- What stands inside the guard of the parcel's header. -/
def parcelHeaderBody : Fragment :=
  h.parcelIncludes p ++ [.blank, visibility p, .blank] ++ h.structTypes p ++ coreSection p ++
    bootDeclarations p

/-! ## The source -/

/-- Opens the private layouts of the parcel's own classes, and of the class of classes. -/
def privacyFlags : Fragment :=
  ((h.classesOf p).map fun c => .flag c.privacySymbol) ++ [.flag "C_CFISH_CLASS"]

/-- Headers of the object system that every source includes. -/
def systemHeaders : List String :=
  ["Clownfish/String.h", "Clownfish/Err.h", "Clownfish/Num.h", "Clownfish/VArray.h",
   "Clownfish/Class.h"]

/-- The headers of a list of classes, each once, in order of first use. -/
def headersOf (classes : List Class) : List String := (classes.map (·.header)).eraseDups

def sourceIncludes : Fragment :=
  [.includeSystem "stdio.h", .includeSystem "stdlib.h", .blank, .includeOwn p.headerName,
   .includeOwn callbacksName] ++
    systemHeaders.map .includeOwn ++ (headersOf (h.classesOf p)).map .includeOwn

/-- The table from which the classes are loaded, unless it is empty. -/
def classTable : Fragment :=
  let rows := (h.dynamicClassesOf p).map (·.row.toInitializer)
  if rows.isEmpty then []
  else
    [.comment "ClassSpec structs for initialization.", .blank,
     .array { type := "cfish_ClassSpec", name := "class_specs", rows, specifiers := "static const" },
     .blank]

/-- The state of the parcel, and the functions that change it. -/
def bootDefinitions : Fragment :=
  [.var { type := "int", name := "bootstrap_state", specifiers := "static", init := some "0" },
   .blank, h.bootInheritance p, .blank, h.bootParcel p, .blank]

/-- What stands inside the frame of the parcel's source. -/
def parcelSourceBody : Fragment :=
  h.privacyFlags p ++ [.blank] ++ h.sourceIncludes p ++ [.blank] ++
    (h.classesOf p).flatMap (·.dataFragment) ++ h.classTable p ++ h.bootDefinitions p

end Hierarchy

end ClassTables
