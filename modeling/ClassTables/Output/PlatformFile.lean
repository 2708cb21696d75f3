import ClassTables.Fragment.Basic
import ClassTables.Platform
/-!
# The platform header

What is known about the platform, as macros, system headers and types that stand in for missing
ones.
-/

namespace ClassTables.Platform

variable (p : Platform)

/-- A macro with a value, or without one when it is empty. -/
def defineOrFlag (name value : String) : Item :=
  if value.isEmpty then .flag name else .defineAs name value

/-- The flags, each with the condition under which it is set. -/
def flags : List (Bool × String) :=
  [(p.features.windowsH, "CFISH_HAS_WINDOWS_H"),
   (p.features.sysAtomicH, "CFISH_HAS_SYS_ATOMIC_H"),
   (p.features.pthreadH, "CFISH_HAS_PTHREAD_H"),
   (p.littleEndian, "CFISH_LITTLE_END"),
   (!p.littleEndian, "CFISH_BIG_END"),
   (p.features.funcMacro, "CFISH_HAS_FUNC_MACRO"),
   (p.features.variadicMacros, "CFISH_HAS_VARIADIC_MACROS"),
   (p.features.isoVariadicMacros, "CFISH_HAS_ISO_VARIADIC_MACROS"),
   (p.features.gnucVariadicMacros, "CFISH_HAS_GNUC_VARIADIC_MACROS"),
   (p.features.osAtomicCasPtr, "CFISH_HAS_OSATOMIC_CAS_PTR")]

def flagItems : Fragment := (p.flags.filter (·.1)).map fun f => .flag f.2

/-- Words that compilers spell in their own ways. -/
def keywords : Fragment :=
  [defineOrFlag "CFISH_INLINE" p.inlineKeyword, defineOrFlag "CFISH_EXPORT" p.exportMacro,
   defineOrFlag "CFISH_IMPORT" p.importMacro]

/-- The sizes of C types. -/
def sizes : Fragment :=
  [.defineAs "CFISH_SIZEOF_CHAR" "1",
   .defineAs "CFISH_SIZEOF_SHORT" (toString p.layout.short),
   .defineAs "CFISH_SIZEOF_INT" (toString p.layout.int),
   .defineAs "CFISH_SIZEOF_LONG" (toString p.layout.long),
   .defineAs "CFISH_SIZEOF_SIZE_T" (toString p.layout.sizeT)]

def macros : Fragment :=
  (if p.features.funcMacro then [.defineAs "CFISH_FUNC_MACRO" p.funcMacro] else []) ++
    [.defineAs "CFISH_U64_TO_DOUBLE(x)" p.u64ToDouble]

/-- The type of truth values and its two values. -/
def boolFallback : String :=
  "typedef int bool;\n" ++
  "#ifndef true\n  #define true 1\n#endif\n" ++
  "#ifndef false\n  #define false 0\n#endif"

def boolSection : Item :=
  if p.hasStdbool then .includeSystem "stdbool.h"
  else
    .cond ⟨.ifHolds, "(!defined(__cplusplus) && !defined(CFISH_HAS_STDBOOL))", true, false⟩
      [.raw boolFallback]

/-- Signed C types of 8, 16, 32 and 64 bits. -/
def signedTypes : List (String × String) :=
  [("8", "char"), ("16", "short"), ("32", if p.layout.int = 4 then "int" else "long"),
   ("64", if p.layout.long = 8 then "long" else "long long")]

def intFallback : Fragment :=
  p.signedTypes.flatMap fun t =>
    [.raw ("typedef signed " ++ t.2 ++ " int" ++ t.1 ++ "_t;"),
     .raw ("typedef unsigned " ++ t.2 ++ " uint" ++ t.1 ++ "_t;")]

def intSection : Item :=
  if p.hasStdint then .includeSystem "stdint.h"
  else .cond ⟨.ifUndefined, "CFISH_HAS_STDINT", true, false⟩ p.intFallback

def allocaSection : Fragment :=
  (match p.allocaSource with
    | .allocaH => [.includeSystem "alloca.h"]
    | .mallocH => [.includeSystem "malloc.h"]
    | .stdlibH => [.includeSystem "stdlib.h"]
    | .nowhere => []) ++
    [.defineAs "cfish_alloca" p.alloca]

/-- What stands inside the guard of the platform header. -/
def headerBody : Fragment :=
  p.flagItems ++ [.blank] ++ p.keywords ++ [.blank] ++ p.sizes ++ [.blank] ++ p.macros ++
    [.blank, p.boolSection, .blank, p.intSection, .blank] ++ p.allocaSection

end ClassTables.Platform
