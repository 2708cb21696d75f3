import ClassTables.Text.Cut
/-!
# Blank characters, and text without them

A character is *blank* when it has the property White_Space of the Unicode character database.
`trim` drops blanks at both ends and `words` gives the stretches between blanks.
-/

namespace ClassTables.Text

/-- The characters with the property White_Space. -/
def isBlank (c : Char) : Bool :=
  let n := c.toNat
  (0x9 ≤ n && n ≤ 0xD) || n == 0x20 || n == 0x85 || n == 0xA0 || n == 0x1680 ||
    (0x2000 ≤ n && n ≤ 0x200A) || n == 0x2028 || n == 0x2029 || n == 0x202F || n == 0x205F ||
    n == 0x3000

/-- Drops blanks at both ends. -/
def trimChars (cs : List Char) : List Char :=
  ((cs.dropWhile isBlank).reverse.dropWhile isBlank).reverse

def trim (s : String) : String := String.ofList (trimChars s.toList)

/-- The maximal stretches without blanks. -/
def words (s : String) : List String :=
  ((pieces isBlank s.toList).filter (!·.isEmpty)).map String.ofList

example : words "  unsigned\tlong " = ["unsigned", "long"] := by decide

end ClassTables.Text
