import ClassTables.Target
/-!
# Platforms

What is known about the compiler and the machine that the generated code is for.
-/

namespace ClassTables

/-- The header that declares `alloca`. -/
inductive AllocaSource where
  | allocaH
  | mallocH
  | stdlibH
  /-- No header does. -/
  | nowhere
deriving DecidableEq, Repr

/-- Abilities that a platform may or may not have. -/
structure PlatformFeatures where
  windowsH : Bool := false
  sysAtomicH : Bool := false
  pthreadH : Bool := false
  funcMacro : Bool := false
  variadicMacros : Bool := false
  isoVariadicMacros : Bool := false
  gnucVariadicMacros : Bool := false
  osAtomicCasPtr : Bool := false
deriving DecidableEq, Repr

/-- A platform.  The defaults describe a 64-bit Linux with a compiler in the style of GCC. -/
structure Platform where
  inlineKeyword : String := "inline"
  exportMacro : String := ""
  importMacro : String := ""
  funcMacro : String := "__func__"
  u64ToDouble : String := "((double)(x))"
  alloca : String := "alloca"
  allocaSource : AllocaSource := .allocaH
  hasStdbool : Bool := true
  hasStdint : Bool := true
  littleEndian : Bool := true
  features : PlatformFeatures :=
    { pthreadH := true, funcMacro := true, variadicMacros := true, isoVariadicMacros := true,
      gnucVariadicMacros := true }
  layout : Target := .lp64
deriving DecidableEq, Repr

end ClassTables
