import ClassTables.Declaration
import ClassTables.Platform
import ClassTables.Json.Basic
import ClassTables.Output.Dirs
/-!
# Manifests

A manifest is the document that a run of the compiler starts from: the declarations, the platform,
and where the output goes and what stands at its top and bottom.  `Manifest.toJson` writes every
field of it; `Manifest.ofJson?`, in the module beside this one, reads it back.
-/

namespace ClassTables

structure Manifest where
  declarations : Declarations := {}
  platform : Platform := {}
  dest : Option OutputDirs := none
  /-- Comment at the top of every file. -/
  header : Option String := none
  /-- Comment at the bottom of every file. -/
  footer : Option String := none
deriving DecidableEq, Repr

/-! ## Writing -/

def Json.texts (ss : List String) : Json := .arr (ss.map .text)

def TypedName.toJson (v : TypedName) : Json :=
  .record [("name", .text v.name), ("type", .text v.type)]

def ParcelDecl.toJson (d : ParcelDecl) : Json :=
  .record [("name", .text d.name), ("nickname", .text? d.nickname), ("prereqs", .texts d.prereqs),
    ("included", .bool d.included)]

def FunctionDecl.toJson (f : FunctionDecl) : Json :=
  .record [("name", .text f.name), ("return", .text f.returns),
    ("params", .arr (f.params.map TypedName.toJson)), ("inline", .bool f.isInline)]

def MethodDecl.toJson (m : MethodDecl) : Json :=
  .record [("name", .text m.name), ("return", .text m.returns),
    ("params", .arr (m.params.map TypedName.toJson)), ("abstract", .bool m.isAbstract),
    ("final", .bool m.isFinal)]

def ClassDecl.toJson (d : ClassDecl) : Json :=
  .record [("name", .text d.name), ("parcel", .text d.parcel), ("nickname", .text? d.nickname),
    ("parent", .text? d.parent), ("header", .text? d.header), ("inert", .bool d.inert),
    ("final", .bool d.isFinal), ("included", .bool d.included),
    ("members", .arr (d.members.map TypedName.toJson)),
    ("inert_vars", .arr (d.inertVars.map TypedName.toJson)),
    ("functions", .arr (d.functions.map FunctionDecl.toJson)),
    ("methods", .arr (d.methods.map MethodDecl.toJson))]

/-- The name of an `alloca` header in a manifest. -/
def AllocaSource.name : AllocaSource → String
  | allocaH => "alloca_h"
  | mallocH => "malloc_h"
  | stdlibH => "stdlib_h"
  | nowhere => "none"

def PlatformFeatures.toJson (f : PlatformFeatures) : Json :=
  .record [("windows_h", .bool f.windowsH), ("sys_atomic_h", .bool f.sysAtomicH),
    ("pthread_h", .bool f.pthreadH), ("func_macro", .bool f.funcMacro),
    ("variadic_macros", .bool f.variadicMacros),
    ("iso_variadic_macros", .bool f.isoVariadicMacros),
    ("gnuc_variadic_macros", .bool f.gnucVariadicMacros),
    ("osatomic_cas_ptr", .bool f.osAtomicCasPtr)]

def Target.toJson (t : Target) : Json :=
  .record [("pointer", .nat t.pointer), ("short", .nat t.short), ("int", .nat t.int),
    ("long", .nat t.long), ("long_long", .nat t.longLong), ("size_t", .nat t.sizeT),
    ("bool", .nat t.bool)]

def Platform.toJson (p : Platform) : Json :=
  .record [("inline_keyword", .text p.inlineKeyword), ("export_macro", .text p.exportMacro),
    ("import_macro", .text p.importMacro), ("func_macro", .text p.funcMacro),
    ("u64_to_double", .text p.u64ToDouble), ("alloca", .text p.alloca),
    ("alloca_source", .text p.allocaSource.name), ("has_stdbool_h", .bool p.hasStdbool),
    ("has_stdint_h", .bool p.hasStdint), ("little_endian", .bool p.littleEndian),
    ("features", p.features.toJson), ("layout", p.layout.toJson)]

def OutputDirs.toJson (d : OutputDirs) : Json :=
  .record [("include", .text d.headers), ("source", .text d.sources)]

def Manifest.toJson (m : Manifest) : Json :=
  .record [("parcels", .arr (m.declarations.parcels.map ParcelDecl.toJson)),
    ("classes", .arr (m.declarations.classes.map ClassDecl.toJson)),
    ("platform", m.platform.toJson),
    ("dest", match m.dest with
      | some d => d.toJson
      | none => .null),
    ("header", .text? m.header), ("footer", .text? m.footer)]

end ClassTables
