import ClassTables.Json.Token
/-!
# Reading tokens

The lexer is an automaton that takes one character at a time, so reading a text is a fold over its
characters.  It knows four modes: between tokens, inside a word (`null`, `true`, `false`), inside a
number, and inside a string literal.
-/

namespace ClassTables.Json

/-! ## Numbers -/

/-- How far a number has been read. -/
inductive NumberPart where
  | sign
  | zero
  | digits
  | point
  | fraction
  | mark
  | markSign
  | exponent
deriving DecidableEq, Repr

namespace NumberPart

/-- The part that `c` leads to, when it continues the number. -/
def next? (c : Char) : NumberPart → Option NumberPart
  | sign => if c = '0' then some zero else if c.isDigit then some digits else none
  | zero => if c = '.' then some point else if c = 'e' || c = 'E' then some mark else none
  | digits =>
    if c.isDigit then some digits
    else if c = '.' then some point
    else if c = 'e' || c = 'E' then some mark else none
  | point => if c.isDigit then some fraction else none
  | fraction =>
    if c.isDigit then some fraction else if c = 'e' || c = 'E' then some mark else none
  | mark => if c.isDigit then some exponent else if c = '+' || c = '-' then some markSign else none
  | markSign => if c.isDigit then some exponent else none
  | exponent => if c.isDigit then some exponent else none

/-- Whether the number may end here. -/
def complete : NumberPart → Bool
  | zero | digits | fraction | exponent => true
  | _ => false

end NumberPart

/-- The value of a sequence of decimal digits. -/
def digitsValue (cs : List Char) : Nat :=
  cs.foldl (fun n c => 10 * n + (c.toNat - 48)) 0

/-- The token of a complete number. -/
def numberToken (cs : List Char) : Token :=
  if cs.all Char.isDigit then .nat (digitsValue cs) else .number (String.ofList cs)

/-! ## String literals -/

/-- Where the reader stands inside a literal. -/
inductive Escape where
  /-- Not in an escape. -/
  | outside
  /-- After a backslash. -/
  | opened
  /-- In a numeric escape: `left` more digits, after those that make up `value`. -/
  | hex (left value : Nat)
deriving DecidableEq, Repr

/-- A literal that has been read in part. -/
structure PartialLiteral where
  /-- The characters so far, the last one first. -/
  read : List Char := []
  /-- A high surrogate that waits for its partner. -/
  high : Option Nat := none
  /-- No surrogate so far has been left alone. -/
  paired : Bool := true
  escape : Escape := .outside
deriving DecidableEq, Repr

/-- The value of a hexadecimal digit. -/
def hexValue? (c : Char) : Option Nat :=
  if c.isDigit then some (c.toNat - 48)
  else if 'a' ≤ c && c ≤ 'f' then some (c.toNat - 87)
  else if 'A' ≤ c && c ≤ 'F' then some (c.toNat - 55)
  else none

namespace PartialLiteral

/-- Adds a character; a surrogate that still waits for its partner stays alone. -/
def push (l : PartialLiteral) (c : Char) : PartialLiteral :=
  { l with read := c :: l.read, high := none, paired := l.paired && l.high.isNone,
           escape := .outside }

/-- Adds the code unit that a numeric escape stands for. -/
def pushUnit (l : PartialLiteral) (n : Nat) : PartialLiteral :=
  if 0xD800 ≤ n && n < 0xDC00 then
    { l with high := some n, paired := l.paired && l.high.isNone, escape := .outside }
  else if 0xDC00 ≤ n && n < 0xE000 then
    match l.high with
    | some h =>
      { l with read := Char.ofNat (0x10000 + (h - 0xD800) * 0x400 + (n - 0xDC00)) :: l.read,
               high := none, escape := .outside }
    | none => { l with paired := false, escape := .outside }
  else l.push (Char.ofNat n)

/-- The character that a one-letter escape stands for. -/
def unescape? (c : Char) : Option Char :=
  if c = '"' || c = '\\' || c = '/' then some c
  else if c = 'b' then some '\x08'
  else if c = 'f' then some '\x0c'
  else if c = 'n' then some '\n'
  else if c = 'r' then some '\r'
  else if c = 't' then some '\t'
  else none

/-- Takes a character other than the closing quote. -/
def step? (l : PartialLiteral) (c : Char) : Option PartialLiteral :=
  match l.escape with
  | .outside =>
    if c = '\\' then some { l with escape := .opened }
    else if c.toNat < 0x20 then none
    else some (l.push c)
  | .opened =>
    if c = 'u' then some { l with escape := .hex 4 0 }
    else (unescape? c).map l.push
  | .hex left value =>
    (hexValue? c).map fun d =>
      if left ≤ 1 then l.pushUnit (16 * value + d)
      else { l with escape := .hex (left - 1) (16 * value + d) }

/-- The text of a finished literal. -/
def finish (l : PartialLiteral) : Literal :=
  if l.paired && l.high.isNone then some (String.ofList l.read.reverse) else none

end PartialLiteral

/-! ## The automaton -/

/-- What the lexer is in the middle of. -/
inductive Mode where
  | between
  /-- A word of which `rest` is still to come. -/
  | word (rest : List Char) (token : Token)
  /-- A number, its characters in reverse. -/
  | number (part : NumberPart) (read : List Char)
  | literal (l : PartialLiteral)

/-- The tokens found so far, the last one first, and what is being read. -/
structure Lexer where
  found : List Token := []
  mode : Mode := .between

namespace Lexer

/-- Takes a character between tokens. -/
def open? (found : List Token) (c : Char) : Option Lexer :=
  if c = ' ' || c = '\t' || c = '\n' || c = '\r' then some ⟨found, .between⟩
  else if c = '\x7b' then some ⟨.openObj :: found, .between⟩
  else if c = '\x7d' then some ⟨.closeObj :: found, .between⟩
  else if c = '[' then some ⟨.openArr :: found, .between⟩
  else if c = ']' then some ⟨.closeArr :: found, .between⟩
  else if c = ',' then some ⟨.comma :: found, .between⟩
  else if c = ':' then some ⟨.colon :: found, .between⟩
  else if c = '"' then some ⟨found, .literal {}⟩
  else if c = '-' then some ⟨found, .number .sign [c]⟩
  else if c = '0' then some ⟨found, .number .zero [c]⟩
  else if c.isDigit then some ⟨found, .number .digits [c]⟩
  else if c = 'n' then some ⟨found, .word ['u', 'l', 'l'] .null⟩
  else if c = 't' then some ⟨found, .word ['r', 'u', 'e'] (.bool true)⟩
  else if c = 'f' then some ⟨found, .word ['a', 'l', 's', 'e'] (.bool false)⟩
  else none

/-- Takes one character. -/
def step? (s : Lexer) (c : Char) : Option Lexer :=
  match s.mode with
  | .between => open? s.found c
  | .word [] _ => none
  | .word [d] t => if c = d then some ⟨t :: s.found, .between⟩ else none
  | .word (d :: rest) t => if c = d then some ⟨s.found, .word rest t⟩ else none
  | .number part read =>
    match part.next? c with
    | some p => some ⟨s.found, .number p (c :: read)⟩
    | none =>
      if part.complete then open? (numberToken read.reverse :: s.found) c else none
  | .literal l =>
    if c = '"' && l.escape = .outside then some ⟨.str l.finish :: s.found, .between⟩
    else (l.step? c).map fun l => ⟨s.found, .literal l⟩

/-- The tokens, if the text may end here. -/
def finish? (s : Lexer) : Option (List Token) :=
  match s.mode with
  | .between => some s.found.reverse
  | .number part read =>
    if part.complete then some (numberToken read.reverse :: s.found).reverse else none
  | _ => none

end Lexer

/-- The tokens of a text. -/
def lex? (s : String) : Option (List Token) :=
  (s.toList.foldlM Lexer.step? {}).bind Lexer.finish?

example : lex? "[1.]" = none := by decide +kernel
example : lex? "[-1.5e3 ,7]" =
    some [.openArr, .number "-1.5e3", .comma, .nat 7, .closeArr] := by decide +kernel

end ClassTables.Json
