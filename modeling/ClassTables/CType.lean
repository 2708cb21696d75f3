import ClassTables.Target
import ClassTables.Text.Blank
/-!
# C types

A C type is its spelling.  The only question asked about it is how much room it takes on a target:
a spelling that ends in a star is a pointer, and a spelling that is a known scalar once its
qualifiers are dropped has the natural size of that scalar.
-/

namespace ClassTables

structure CType where
  spelling : String
deriving DecidableEq, Repr

namespace CType

/-- The type spelled by a text; blanks around it do not count. -/
def ofText (s : String) : CType := ⟨Text.trim s⟩

def void : CType := ofText "void"

/-- Pointer to the struct with the given name. -/
def pointerTo (struct : String) : CType := ofText (struct ++ "*")

/-- `void` itself, not a pointer to it. -/
def isVoid (t : CType) : Bool := t.spelling == "void"

def isPointer (t : CType) : Bool := t.spelling.toList.getLast? == some '*'

/-- Words that do not change the layout of a type. -/
def isQualifier (word : String) : Bool := word == "const" || word == "volatile"

/-- The spelling without qualifiers, its words one space apart. -/
def unqualified (t : CType) : String :=
  " ".intercalate ((Text.words t.spelling).filter (!isQualifier ·))

/-- The size of the scalar with the given unqualified spelling. -/
def scalarSize? (target : Target) (s : String) : Option Nat :=
  if s ∈ ["char", "signed char", "unsigned char", "int8_t", "uint8_t"] then some 1
  else if s ∈ ["short", "unsigned short", "int16_t", "uint16_t"] then some target.short
  else if s ∈ ["int", "unsigned", "unsigned int"] then some target.int
  else if s ∈ ["long", "unsigned long"] then some target.long
  else if s ∈ ["long long", "unsigned long long"] then some target.longLong
  else if s ∈ ["int32_t", "uint32_t", "float"] then some 4
  else if s ∈ ["int64_t", "uint64_t", "double"] then some 8
  else if s ∈ ["size_t", "ptrdiff_t", "intptr_t", "uintptr_t"] then some target.sizeT
  else if s = "bool" then some target.bool
  else none

/-- The room a value of the type takes; unknown for structs, foreign names and `void`. -/
def extent? (target : Target) (t : CType) : Option Extent :=
  if t.isPointer then some (.natural target.pointer)
  else (scalarSize? target t.unqualified).map .natural

example : extent? .lp64 (ofText " const unsigned\tlong volatile ") = some ⟨8, 8⟩ := by decide +kernel
example : extent? .lp64 void = none := by decide +kernel

end CType

end ClassTables
