import ClassTables.Json.Basic
/-!
# The tokens of JSON text

A document is a sequence of tokens (`Json.tokens`), and every token has one written form
(`Token.text`).  Together they print a document without blanks.
-/

namespace ClassTables.Json

inductive Token where
  | null
  | bool (b : Bool)
  | nat (n : Nat)
  | number (spelling : String)
  | str (text : Literal)
  | comma
  | colon
  | openArr
  | closeArr
  | openObj
  | closeObj
deriving DecidableEq, Repr

/-! ## From documents to tokens -/

mutual

/-- The tokens of a document, in reading order. -/
def tokens : Json → List Token
  | .null => [.null]
  | .bool b => [.bool b]
  | .nat n => [.nat n]
  | .number s => [.number s]
  | .str t => [.str t]
  | .arr items => .openArr :: (itemTokens items ++ [.closeArr])
  | .obj members => .openObj :: (memberTokens members ++ [.closeObj])

/-- The tokens of array items, with commas between them. -/
def itemTokens : List Json → List Token
  | [] => []
  | j :: js =>
    match js with
    | [] => tokens j
    | _ :: _ => tokens j ++ .comma :: itemTokens js

/-- The tokens of members, with commas between them. -/
def memberTokens : List (Literal × Json) → List Token
  | [] => []
  | (k, j) :: ms =>
    match ms with
    | [] => .str k :: .colon :: tokens j
    | _ :: _ => .str k :: .colon :: (tokens j ++ .comma :: memberTokens ms)

end

/-! ## The written form of a token -/

/-- The digit that stands for `n < 16`. -/
def hexDigit (n : Nat) : Char := (Nat.digitChar n)

/-- One character inside a string literal: quotes, backslashes and controls are escaped. -/
def literalChar (c : Char) : List Char :=
  if c = '"' || c = '\\' then ['\\', c]
  else if c = '\x08' then ['\\', 'b']
  else if c = '\x0c' then ['\\', 'f']
  else if c = '\n' then ['\\', 'n']
  else if c = '\r' then ['\\', 'r']
  else if c = '\t' then ['\\', 't']
  else if c.toNat < 0x20 then
    ['\\', 'u', '0', '0', hexDigit (c.toNat / 16), hexDigit (c.toNat % 16)]
  else [c]

/-- The characters of a token.  A literal without text is written as a lone surrogate escape. -/
def Token.chars : Token → List Char
  | .null => ['n', 'u', 'l', 'l']
  | .bool true => ['t', 'r', 'u', 'e']
  | .bool false => ['f', 'a', 'l', 's', 'e']
  | .nat n => Nat.toDigits 10 n
  | .number s => s.toList
  | .str (some s) => '"' :: (s.toList.flatMap literalChar ++ ['"'])
  | .str none => ['"', '\\', 'u', 'd', '8', '0', '0', '"']
  | .comma => [',']
  | .colon => [':']
  | .openArr => ['[']
  | .closeArr => [']']
  | .openObj => ['\x7b']
  | .closeObj => ['\x7d']

/-- The text of a document, without blanks. -/
def print (j : Json) : String := String.ofList (j.tokens.flatMap Token.chars)

example : print (.record [("a", .arr [.nat 1, .text "\n"])]) = "\x7b\"a\":[1,\"\\n\"]\x7d" := by
  decide +kernel

end ClassTables.Json
