import ClassTables.Text.Case.Mapping
import ClassTables.Text.Case.Context
/-!
# Case conversion

The full case mapping of Unicode, letter by letter, with two refinements: a capital may be several
letters long (`ß` becomes `SS`), and a capital sigma becomes a final sigma at the end of a word.
-/

namespace ClassTables.Text

/-- The capital form of a letter. -/
def capital (c : Char) : List Char :=
  if c.toNat < 0x80 then [c.toUpper]
  else
    match longCapitals.lookup c.toNat with
    | some ns => ns.map Char.ofNat
    | none => [(shifted? capitalShifts c.toNat).getD c]

/-- The small form of a letter, taken by itself. -/
def small (c : Char) : List Char :=
  if c.toNat < 0x80 then [c.toLower]
  else if c.toNat = 0x130 then ['i', Char.ofNat 0x307]
  else [(shifted? smallShifts c.toNat).getD c]

/-- Whether the first character that counts is a letter with a case. -/
def meetsCased (cs : List Char) : Bool :=
  match cs.dropWhile isCaseIgnorable with
  | [] => false
  | c :: _ => isCased c

/-- The small form of a text.  `before` holds what precedes it, nearest character first: a sigma is
final when a letter comes before it and none after it. -/
def smallChars (before : List Char) : List Char → List Char
  | [] => []
  | c :: cs =>
    (if c.toNat = 0x3A3 then
      [if meetsCased before && !meetsCased cs then 'ς' else 'σ']
    else small c) ++ smallChars (c :: before) cs

def toUpper (s : String) : String := String.ofList (s.toList.flatMap capital)

def toLower (s : String) : String := String.ofList (smallChars [] s.toList)

example : toUpper "Animal_" = "ANIMAL_" := by decide
example : toLower "Animal_" = "animal_" := by decide
example : toUpper "Straße" = "STRASSE" := by decide
example : toLower "ΟΔΟΣ_Σ" = "οδος_σ" := by decide +kernel

end ClassTables.Text
