/-!
# Output text

Text that grows at its end: pieces, line ends and indentation are appended, and `endLine` tidies
the end so that it is one newline.
-/

namespace ClassTables.Text

/-- Text under construction. -/
structure Buffer where
  text : String := ""
deriving DecidableEq, Repr

/-- `n` spaces. -/
def spaces (n : Nat) : String := String.ofList (List.replicate n ' ')

/-- Drops all but one of the newlines that open a reversed text, and adds one if there is none. -/
def oneNewline : List Char → List Char
  | '\n' :: '\n' :: cs => oneNewline ('\n' :: cs)
  | '\n' :: cs => '\n' :: cs
  | [] => []
  | cs => '\n' :: cs

namespace Buffer

def append (b : Buffer) (s : String) : Buffer := ⟨b.text ++ s⟩

def newline (b : Buffer) : Buffer := b.append "\n"

def indent (b : Buffer) (n : Nat) : Buffer := b.append (spaces n)

/-- Makes text that is not empty end in exactly one newline. -/
def endLine (b : Buffer) : Buffer := ⟨String.ofList (oneNewline b.text.toList.reverse).reverse⟩

end Buffer

end ClassTables.Text
