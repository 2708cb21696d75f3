import ClassTables.Manifest.Basic
import ClassTables.Json.Parser
import ClassTables.Json.Record
/-!
# Reading manifests

Every record of a manifest may be an object or an array (`Json.record?`).  Parcels, classes and what
they declare admit no unknown fields; the platform, its parts and the output directories skip them.
-/

namespace ClassTables

open Json

def TypedName.ofJson? (j : Json) : Option TypedName := do
  match ← record? .closed ["name", "type"] j with
  | [name, type] => return ⟨← required readText name, ← required readText type⟩
  | _ => none

def ParcelDecl.ofJson? (j : Json) : Option ParcelDecl := do
  match ← record? .closed ["name", "nickname", "prereqs", "included"] j with
  | [name, nickname, prereqs, included] =>
    return {
      name := ← required readText name
      nickname := ← withDefault none (optional readText) nickname
      prereqs := ← withDefault [] (readList readText) prereqs
      included := ← withDefault false readBool included }
  | _ => none

def FunctionDecl.ofJson? (j : Json) : Option FunctionDecl := do
  match ← record? .closed ["name", "return", "params", "inline"] j with
  | [name, returns, params, isInline] =>
    return {
      name := ← required readText name
      returns := ← withDefault "void" readText returns
      params := ← withDefault [] (readList TypedName.ofJson?) params
      isInline := ← withDefault false readBool isInline }
  | _ => none

def MethodDecl.ofJson? (j : Json) : Option MethodDecl := do
  match ← record? .closed ["name", "return", "params", "abstract", "final"] j with
  | [name, returns, params, isAbstract, isFinal] =>
    return {
      name := ← required readText name
      returns := ← withDefault "void" readText returns
      params := ← withDefault [] (readList TypedName.ofJson?) params
      isAbstract := ← withDefault false readBool isAbstract
      isFinal := ← withDefault false readBool isFinal }
  | _ => none

def ClassDecl.ofJson? (j : Json) : Option ClassDecl := do
  match ← record? .closed ["name", "parcel", "nickname", "parent", "header", "inert", "final",
      "included", "members", "inert_vars", "functions", "methods"] j with
  | [name, parcel, nickname, parent, header, inert, isFinal, included, members, inertVars,
      functions, methods] =>
    return {
      name := ← required readText name
      parcel := ← required readText parcel
      nickname := ← withDefault none (optional readText) nickname
      parent := ← withDefault none (optional readText) parent
      header := ← withDefault none (optional readText) header
      inert := ← withDefault false readBool inert
      isFinal := ← withDefault false readBool isFinal
      included := ← withDefault false readBool included
      members := ← withDefault [] (readList TypedName.ofJson?) members
      inertVars := ← withDefault [] (readList TypedName.ofJson?) inertVars
      functions := ← withDefault [] (readList FunctionDecl.ofJson?) functions
      methods := ← withDefault [] (readList MethodDecl.ofJson?) methods }
  | _ => none

/-- The `alloca` header of the given name. -/
def AllocaSource.ofName? (s : String) : Option AllocaSource :=
  [allocaH, mallocH, stdlibH, nowhere].find? (·.name == s)

/-- A name, or an object with the name as its only key and `null` as its value. -/
def AllocaSource.ofJson? : Json → Option AllocaSource
  | .str (some s) => ofName? s
  | .obj [(some s, .null)] => ofName? s
  | _ => none

def PlatformFeatures.ofJson? (j : Json) : Option PlatformFeatures := do
  match ← record? .lenient ["windows_h", "sys_atomic_h", "pthread_h", "func_macro",
      "variadic_macros", "iso_variadic_macros", "gnuc_variadic_macros", "osatomic_cas_ptr"] j with
  | [windowsH, sysAtomicH, pthreadH, funcMacro, variadic, isoVariadic, gnucVariadic, osAtomic] =>
    return {
      windowsH := ← withDefault false readBool windowsH
      sysAtomicH := ← withDefault false readBool sysAtomicH
      pthreadH := ← withDefault false readBool pthreadH
      funcMacro := ← withDefault false readBool funcMacro
      variadicMacros := ← withDefault false readBool variadic
      isoVariadicMacros := ← withDefault false readBool isoVariadic
      gnucVariadicMacros := ← withDefault false readBool gnucVariadic
      osAtomicCasPtr := ← withDefault false readBool osAtomic }
  | _ => none

def Target.ofJson? (j : Json) : Option Target := do
  let d := Target.lp64
  match ← record? .lenient ["pointer", "short", "int", "long", "long_long", "size_t", "bool"] j with
  | [pointer, short, int, long, longLong, sizeT, bool] =>
    return {
      pointer := ← withDefault d.pointer readU32 pointer
      short := ← withDefault d.short readU32 short
      int := ← withDefault d.int readU32 int
      long := ← withDefault d.long readU32 long
      longLong := ← withDefault d.longLong readU32 longLong
      sizeT := ← withDefault d.sizeT readU32 sizeT
      bool := ← withDefault d.bool readU32 bool }
  | _ => none

def Platform.ofJson? (j : Json) : Option Platform := do
  let d : Platform := {}
  match ← record? .lenient ["inline_keyword", "export_macro", "import_macro", "func_macro",
      "u64_to_double", "alloca", "alloca_source", "has_stdbool_h", "has_stdint_h", "little_endian",
      "features", "layout"] j with
  | [inlineKeyword, exportMacro, importMacro, funcMacro, u64ToDouble, alloca, allocaSource,
      hasStdbool, hasStdint, littleEndian, features, layout] =>
    return {
      inlineKeyword := ← withDefault d.inlineKeyword readText inlineKeyword
      exportMacro := ← withDefault d.exportMacro readText exportMacro
      importMacro := ← withDefault d.importMacro readText importMacro
      funcMacro := ← withDefault d.funcMacro readText funcMacro
      u64ToDouble := ← withDefault d.u64ToDouble readText u64ToDouble
      alloca := ← withDefault d.alloca readText alloca
      allocaSource := ← withDefault d.allocaSource AllocaSource.ofJson? allocaSource
      hasStdbool := ← withDefault d.hasStdbool readBool hasStdbool
      hasStdint := ← withDefault d.hasStdint readBool hasStdint
      littleEndian := ← withDefault d.littleEndian readBool littleEndian
      features := ← withDefault d.features PlatformFeatures.ofJson? features
      layout := ← withDefault d.layout Target.ofJson? layout }
  | _ => none

def OutputDirs.ofJson? (j : Json) : Option OutputDirs := do
  match ← record? .lenient ["include", "source"] j with
  | [headers, sources] => return ⟨← required readText headers, ← required readText sources⟩
  | _ => none

/-- The manifest that a document describes. -/
def Manifest.ofJson? (j : Json) : Option Manifest := do
  match ← record? .closed ["parcels", "classes", "platform", "dest", "header", "footer"] j with
  | [parcels, classes, platform, dest, header, footer] =>
    return {
      declarations :=
        { parcels := ← withDefault [] (readList ParcelDecl.ofJson?) parcels
          classes := ← withDefault [] (readList ClassDecl.ofJson?) classes }
      platform := ← withDefault {} Platform.ofJson? platform
      dest := ← withDefault none (optional OutputDirs.ofJson?) dest
      header := ← withDefault none (optional readText) header
      footer := ← withDefault none (optional readText) footer }
  | _ => none

/-- The manifest that a text spells. -/
def Manifest.parse? (text : String) : Option Manifest := (Json.parse? text).bind Manifest.ofJson?

end ClassTables
