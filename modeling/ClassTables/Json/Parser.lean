import ClassTables.Json.Lexer
/-!
# Reading documents

A document is read from its tokens with a stack of open containers, so reading is a fold and no
depth of nesting is too deep.
-/

namespace ClassTables.Json

/-- A container that has been opened and not closed, its contents in reverse. -/
inductive Frame where
  | arr (items : List Json)
  | obj (members : List (Literal × Json))
  /-- An object that waits for the value of `key`. -/
  | member (members : List (Literal × Json)) (key : Literal)

/-- What may come next. -/
inductive Expect where
  | value
  /-- After an opening bracket: a value or the closing bracket. -/
  | firstItem
  | key
  /-- After an opening brace: a key or the closing brace. -/
  | firstKey
  | colon
  /-- After a value inside a container: a comma or the end of the container. -/
  | more
  /-- Nothing: the document is complete. -/
  | nothing (document : Json)

/-- The open containers, innermost first, and what may come next. -/
structure Parser where
  stack : List Frame := []
  expect : Expect := .value

namespace Parser

/-- Puts a complete value where it belongs. -/
def place (j : Json) : List Frame → Option Parser
  | [] => some ⟨[], .nothing j⟩
  | .arr items :: rest => some ⟨.arr (j :: items) :: rest, .more⟩
  | .member members key :: rest => some ⟨.obj ((key, j) :: members) :: rest, .more⟩
  | .obj _ :: _ => none

/-- Takes a token where a value may start. -/
def openValue? (stack : List Frame) : Token → Option Parser
  | .null => place .null stack
  | .bool b => place (.bool b) stack
  | .nat n => place (.nat n) stack
  | .number s => place (.number s) stack
  | .str t => place (.str t) stack
  | .openArr => some ⟨.arr [] :: stack, .firstItem⟩
  | .openObj => some ⟨.obj [] :: stack, .firstKey⟩
  | _ => none

/-- Takes a token that closes the innermost container. -/
def close? : List Frame → Token → Option Parser
  | .arr items :: rest, .closeArr => place (.arr items.reverse) rest
  | .obj members :: rest, .closeObj => place (.obj members.reverse) rest
  | _, _ => none

/-- Takes a token where a key must stand. -/
def openKey? : List Frame → Token → Option Parser
  | .obj members :: rest, .str key => some ⟨.member members key :: rest, .colon⟩
  | _, _ => none

/-- Takes one token. -/
def step? (s : Parser) (t : Token) : Option Parser :=
  match s.expect with
  | .value => openValue? s.stack t
  | .firstItem => if t = .closeArr then close? s.stack t else openValue? s.stack t
  | .key => openKey? s.stack t
  | .firstKey => if t = .closeObj then close? s.stack t else openKey? s.stack t
  | .colon => if t = .colon then some ⟨s.stack, .value⟩ else none
  | .more =>
    if t = .comma then
      match s.stack with
      | .arr _ :: _ => some ⟨s.stack, .value⟩
      | _ => some ⟨s.stack, .key⟩
    else close? s.stack t
  | .nothing _ => none

/-- The document, if it is complete. -/
def finish? (s : Parser) : Option Json :=
  match s.expect with
  | .nothing j => some j
  | _ => none

end Parser

/-- The document that the tokens spell. -/
def ofTokens? (ts : List Token) : Option Json :=
  (ts.foldlM Parser.step? {}).bind Parser.finish?

/-- The document that a text spells. -/
def parse? (s : String) : Option Json := (lex? s).bind ofTokens?

end ClassTables.Json
