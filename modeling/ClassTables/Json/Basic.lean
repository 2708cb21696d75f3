/-!
# JSON documents

A document is kept as it was written: members in their order, repeated keys included.  Numbers
that are plain naturals are numbers here; any other number keeps its spelling, since nothing in
this library computes with it.

A string literal may hold a surrogate escape without its partner.  Such a literal is well formed
but stands for no text, so the text of a literal is optional.
-/

namespace ClassTables

/-- The text that a string literal stands for, if it stands for any. -/
abbrev Json.Literal := Option String

inductive Json where
  | null
  | bool (b : Bool)
  /-- A number without sign, fraction and exponent. -/
  | nat (n : Nat)
  /-- Any other number, as spelled. -/
  | number (spelling : String)
  | str (text : Json.Literal)
  | arr (items : List Json)
  | obj (members : List (Json.Literal × Json))

namespace Json

/-- The document that is just a text. -/
def text (s : String) : Json := .str (some s)

/-- An object whose keys are the given texts. -/
def record (members : List (String × Json)) : Json :=
  .obj (members.map fun m => (some m.1, m.2))

/-- The text or nothing. -/
def text? : Option String → Json
  | some s => .text s
  | none => .null

end Json

end ClassTables
