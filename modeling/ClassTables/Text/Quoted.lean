import ClassTables.Text.Concealed
/-!
# Quoted text

Text between double quotes in which every character can be told apart: quotes and backslashes are
escaped, the common controls have letters, and any other concealed character is shown by its number.
-/

namespace ClassTables.Text

/-- One character inside quotes. -/
def quoteChar (c : Char) : List Char :=
  if c = '\x00' then ['\\', '0']
  else if c = '\t' then ['\\', 't']
  else if c = '\r' then ['\\', 'r']
  else if c = '\n' then ['\\', 'n']
  else if c = '\\' || c = '"' then ['\\', c]
  else if isConcealed c then ['\\', 'u', '\x7b'] ++ Nat.toDigits 16 c.toNat ++ ['\x7d']
  else [c]

def quote (s : String) : String := "\"" ++ String.ofList (s.toList.flatMap quoteChar) ++ "\""

example : quote "a\"\n" = "\"a\\\"\\n\"" := by decide +kernel

end ClassTables.Text
