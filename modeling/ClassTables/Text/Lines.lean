import ClassTables.Text.Cut
/-!
# The lines of a text

A line ends at a newline, or at a carriage return and a newline; what follows the last newline is
a line unless it is empty.  A carriage return elsewhere belongs to its line.
-/

namespace ClassTables.Text

/-- Drops one carriage return at the end. -/
def dropReturn (cs : List Char) : List Char :=
  match cs.reverse with
  | '\r' :: rest => rest.reverse
  | _ => cs

/-- The lines of a text, from its stretches between newlines. -/
def lineChars : List (List Char) → List (List Char)
  | [] => []
  | [w] => if w.isEmpty then [] else [w]
  | w :: ws => dropReturn w :: lineChars ws

def lines (s : String) : List String :=
  (lineChars (pieces (· == '\n') s.toList)).map String.ofList

example : lines "a\r\n\nb\r" = ["a", "", "b\r"] := by decide
example : lines "" = [] := by decide

end ClassTables.Text
