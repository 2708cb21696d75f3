import ClassTables.Json.Lexer
import Mathlib.Data.List.Chain
/-!
# Reading written tokens

A token is written in one way (`Token.chars`), and any blanks may stand between tokens (`Spells`).
The lexer keeps no look-ahead: it learns that a number has ended from the character behind it.  So
after a token it stands in one of two places (`Lexer.Done`), and a character that can go on with no
number leads on from both to the same place.  Two numbers need a blank between them; documents never
put two next to each other (`Separated`).

Main statement: a text that spells tokens is read as these tokens (`lex?_of_spells`).
-/

namespace ClassTables.Json

/-! ## Numbers -/

namespace NumberPart

/-- The part that a number stands in after its first character. -/
def first? (c : Char) : Option NumberPart :=
  if c = '-' then some sign else sign.next? c

/-- The part that a number stands in after all of its characters. -/
def ofSpelling? : List Char → Option NumberPart
  | [] => none
  | c :: cs => (first? c).bind fun part => cs.foldlM (fun p d => p.next? d) part

variable {part : NumberPart} {c : Char} {cs : List Char}

theorem ofSpelling?_concat (h : cs ≠ []) :
    ofSpelling? (cs ++ [c]) = (ofSpelling? cs).bind fun part => part.next? c := by
  cases cs with
  | nil => exact absurd rfl h
  | cons d cs =>
      rw [List.cons_append, ofSpelling?, ofSpelling?, Option.bind_assoc]
      congr 1
      funext p
      rw [List.foldlM_append]
      simp

theorem next?_digits (h : c.isDigit) : digits.next? c = some digits := by
  simp [next?, h]

/-- A character that is no digit, no point and no exponent mark ends every number. -/
def ends (c : Char) : Bool := !c.isDigit && c != '.' && c != 'e' && c != 'E'

theorem next?_eq_none_of_ends (hp : part.complete) (hc : ends c) : part.next? c = none := by
  simp only [ends, Bool.and_eq_true, Bool.not_eq_true', bne_iff_ne] at hc
  obtain ⟨⟨⟨hd, hdot⟩, he⟩, hE⟩ := hc
  cases part with
  | zero | digits | fraction | exponent => simp [next?, hd, hdot, he, hE]
  | sign | point | mark | markSign => cases hp

end NumberPart

/-- The characters are those of a whole number. -/
def IsNumber (cs : List Char) : Prop :=
  ∃ part, NumberPart.ofSpelling? cs = some part ∧ part.complete

theorem ofSpelling?_toDigits {n : Nat} (h : 0 < n) :
    NumberPart.ofSpelling? (Nat.toDigits 10 n) = some .digits := by
  induction n using Nat.base_induction 10 (by decide) with
  | single d hd =>
      -- The leading digit of a positive number is not `0`, which would end the number.
      have hne : d ≠ 0 := Nat.ne_of_gt h
      have hminus : d.digitChar ≠ '-' := by
        intro he
        have := Nat.isDigit_digitChar (n := d)
        simp [he, hd] at this
      simp [Nat.toDigits_of_lt_base hd, NumberPart.ofSpelling?, NumberPart.first?,
        NumberPart.next?, hminus, hne, hd]
  | digit m d hd hm ih =>
      have hdigit : d.digitChar.isDigit := by simpa using hd
      rw [← Nat.toDigits_append_toDigits (by decide) hm hd, Nat.toDigits_of_lt_base hd,
        NumberPart.ofSpelling?_concat Nat.toDigits_ne_nil, ih hm, Option.bind_some,
        NumberPart.next?_digits hdigit]

theorem isNumber_toDigits (n : Nat) : IsNumber (Nat.toDigits 10 n) := by
  rcases Nat.eq_zero_or_pos n with rfl | hn
  · exact ⟨.zero, by decide, rfl⟩
  · exact ⟨.digits, ofSpelling?_toDigits hn, rfl⟩

theorem numberToken_toDigits (n : Nat) : numberToken (Nat.toDigits 10 n) = .nat n := by
  have hdigits : (Nat.toDigits 10 n).all Char.isDigit :=
    List.all_eq_true.mpr fun _ hc => Nat.isDigit_of_mem_toDigits (by decide) (by decide) hc
  rw [numberToken, if_pos hdigits]
  exact congrArg Token.nat Nat.ofDigitChars_ten_toDigits

/-! ## String literals -/

theorem hexValue?_hexDigit {n : Nat} (h : n < 16) : hexValue? (hexDigit n) = some n := by
  revert n
  decide

namespace Lexer

variable {found : List Token} {c : Char} {cs : List Char}

/-- The escape of a control character stands for the character. -/
theorem foldlM_control (read : List Char) (h : c.toNat < 0x20) :
    ['\\', 'u', '0', '0', hexDigit (c.toNat / 16), hexDigit (c.toNat % 16)].foldlM step?
        ⟨found, .literal { read := read }⟩ =
      some ⟨found, .literal { read := c :: read }⟩ := by
  have hhigh : hexValue? (hexDigit (c.toNat / 16)) = some (c.toNat / 16) :=
    hexValue?_hexDigit (by omega)
  have hlow : hexValue? (hexDigit (c.toNat % 16)) = some (c.toNat % 16) :=
    hexValue?_hexDigit (by omega)
  have hzero : hexValue? '0' = some 0 := rfl
  -- The four digits have the character's own number as their value, and that is no surrogate.
  have hvalue : 16 * (c.toNat / 16) + c.toNat % 16 = c.toNat := by omega
  have hunit (value : Nat) :
      PartialLiteral.pushUnit { read := read, escape := .hex 1 value } c.toNat =
        { read := c :: read } := by
    have hlow : ¬ 0xD800 ≤ c.toNat := by omega
    have hhigh : ¬ 0xDC00 ≤ c.toNat := by omega
    simp [PartialLiteral.pushUnit, hlow, hhigh, PartialLiteral.push]
  simp [step?, PartialLiteral.step?, hhigh, hlow, hzero, hvalue, hunit]

/-- A written character is added to the literal that is being read. -/
theorem foldlM_literalChar (read : List Char) :
    (literalChar c).foldlM step? ⟨found, .literal { read := read }⟩ =
      some ⟨found, .literal { read := c :: read }⟩ := by
  unfold literalChar
  split_ifs with hq hb hf hn hr ht hcontrol
  · rcases (by simpa using hq : c = '"' ∨ c = '\\') with rfl | rfl <;> rfl
  · subst hb; rfl
  · subst hf; rfl
  · subst hn; rfl
  · subst hr; rfl
  · subst ht; rfl
  · exact foldlM_control read hcontrol
  · obtain ⟨hquote, hslash⟩ : c ≠ '"' ∧ c ≠ '\\' := by simpa using hq
    simp [step?, PartialLiteral.step?, PartialLiteral.push, hquote, hslash, hcontrol]

theorem foldlM_flatMap_literalChar (read : List Char) :
    (cs.flatMap literalChar).foldlM step? ⟨found, .literal { read := read }⟩ =
      some ⟨found, .literal { read := cs.reverse ++ read }⟩ := by
  induction cs generalizing read with
  | nil => rfl
  | cons c cs ih =>
      rw [List.flatMap_cons, List.foldlM_append, foldlM_literalChar]
      simpa using ih (c :: read)

theorem foldlM_str (t : Literal) :
    (Token.str t).chars.foldlM step? ⟨found, .between⟩ = some ⟨.str t :: found, .between⟩ := by
  cases t with
  | none => rfl
  | some s =>
      have hopen : step? ⟨found, .between⟩ '"' = some ⟨found, .literal {}⟩ := rfl
      rw [Token.chars, List.foldlM_cons, hopen]
      simp only [Option.bind_eq_bind, Option.bind_some]
      rw [List.foldlM_append, foldlM_flatMap_literalChar]
      simp [step?, PartialLiteral.finish]

/-! ## Tokens -/

/-- A number starts where the lexer stands between tokens. -/
theorem open?_of_first? {part : NumberPart} (h : NumberPart.first? c = some part) :
    open? found c = some ⟨found, .number part [c]⟩ := by
  simp only [NumberPart.first?, NumberPart.next?] at h
  split_ifs at h with hminus hzero hdigit
  · subst hminus
    cases h
    rfl
  · subst hzero
    cases h
    rfl
  · cases h
    have hne (d : Char) (hd : d.isDigit = false) : c ≠ d := by
      rintro rfl
      simp [hdigit] at hd
    simp [open?, hzero, hdigit, hne]

theorem foldlM_next? {part last : NumberPart} (read : List Char)
    (h : cs.foldlM (fun p d => p.next? d) part = some last) :
    cs.foldlM step? ⟨found, .number part read⟩ =
      some ⟨found, .number last (cs.reverse ++ read)⟩ := by
  induction cs generalizing part read with
  | nil =>
      cases h
      rfl
  | cons c cs ih =>
      obtain ⟨next, hnext, hrest⟩ := Option.bind_eq_some_iff.mp h
      have hstep : step? ⟨found, .number part read⟩ c = some ⟨found, .number next (c :: read)⟩ := by
        simp [step?, hnext]
      rw [List.foldlM_cons, hstep]
      simpa using ih (c :: read) hrest

theorem foldlM_number {part : NumberPart} (h : NumberPart.ofSpelling? cs = some part) :
    cs.foldlM step? ⟨found, .between⟩ = some ⟨found, .number part cs.reverse⟩ := by
  cases cs with
  | nil => cases h
  | cons c cs =>
      obtain ⟨first, hfirst, hrest⟩ := Option.bind_eq_some_iff.mp h
      have hstep : step? ⟨found, .between⟩ c = some ⟨found, .number first [c]⟩ :=
        open?_of_first? hfirst
      rw [List.foldlM_cons, hstep]
      simpa using foldlM_next? [c] hrest

/-- All of `found` has been read, though the last of it may be a number that could go on. -/
inductive Done : Lexer → List Token → Prop where
  | between (found : List Token) : Done ⟨found, .between⟩ found
  | number {part : NumberPart} (found : List Token) (read : List Char) (h : part.complete) :
      Done ⟨found, .number part read⟩ (numberToken read.reverse :: found)

theorem exists_foldlM_number (h : IsNumber cs) (found : List Token) :
    ∃ s, cs.foldlM step? ⟨found, .between⟩ = some s ∧ s.Done (numberToken cs :: found) := by
  obtain ⟨part, hpart, hcomplete⟩ := h
  refine ⟨_, foldlM_number hpart, ?_⟩
  simpa using Done.number found cs.reverse hcomplete

variable {s : Lexer}

theorem Done.finish? (h : s.Done found) : s.finish? = some found.reverse := by
  cases h with
  | between => rfl
  | number found read hp => simp [Lexer.finish?, hp]

/-- A character that ends every number is read as it is between tokens. -/
theorem Done.step? (h : s.Done found) (hc : NumberPart.ends c) :
    s.step? c = Lexer.step? ⟨found, .between⟩ c := by
  cases h with
  | between => rfl
  | number found read hp => simp [Lexer.step?, NumberPart.next?_eq_none_of_ends hp hc, hp]

end Lexer

namespace Token

def isNumber : Token → Bool
  | .nat _ | .number _ => true
  | _ => false

/-- The token can be written and told apart: what is kept as spelled is the spelling of a number, and
not of a natural. -/
def Proper : Token → Prop
  | .number s => IsNumber s.toList ∧ s.toList.all Char.isDigit = false
  | _ => True

/-- Every token but a number starts with a character that ends a number. -/
theorem exists_chars_eq_cons {t : Token} (h : t.isNumber = false) :
    ∃ c cs, t.chars = c :: cs ∧ NumberPart.ends c := by
  cases t with
  | nat | number => cases h
  | bool b => cases b <;> exact ⟨_, _, rfl, by decide⟩
  | str t => cases t <;> exact ⟨_, _, rfl, by decide⟩
  | null | comma | colon | openArr | closeArr | openObj | closeObj =>
      exact ⟨_, _, rfl, by decide⟩

/-- Reading a token between tokens. -/
theorem foldlM_chars {t : Token} (h : t.Proper) (found : List Token) :
    ∃ s, t.chars.foldlM Lexer.step? ⟨found, .between⟩ = some s ∧ s.Done (t :: found) ∧
      (s.mode = .between ∨ t.isNumber) := by
  cases t with
  | nat n =>
      obtain ⟨s, hs, hdone⟩ := Lexer.exists_foldlM_number (isNumber_toDigits n) found
      exact ⟨s, hs, numberToken_toDigits n ▸ hdone, .inr rfl⟩
  | number spelling =>
      obtain ⟨s, hs, hdone⟩ := Lexer.exists_foldlM_number h.1 found
      have htoken : numberToken spelling.toList = .number spelling := by
        simp [numberToken, h.2]
      exact ⟨s, hs, htoken ▸ hdone, .inr rfl⟩
  | str t => exact ⟨_, Lexer.foldlM_str t, .between _, .inl rfl⟩
  | bool b => cases b <;> exact ⟨_, rfl, .between _, .inl rfl⟩
  | null | comma | colon | openArr | closeArr | openObj | closeObj =>
      exact ⟨_, rfl, .between _, .inl rfl⟩

end Token

/-! ## Texts -/

/-- A character that may stand between tokens. -/
def isBlank (c : Char) : Bool := c = ' ' || c = '\t' || c = '\n' || c = '\r'

/-- The characters are the tokens in order, with any blanks before, between and behind them. -/
inductive Spells : List Token → List Char → Prop where
  | nil : Spells [] []
  | blank {ts : List Token} {cs : List Char} (c : Char) (h : isBlank c) (rest : Spells ts cs) :
      Spells ts (c :: cs)
  | token {ts : List Token} {cs : List Char} (t : Token) (rest : Spells ts cs) :
      Spells (t :: ts) (t.chars ++ cs)

theorem spells_flatMap_chars (ts : List Token) : Spells ts (ts.flatMap Token.chars) := by
  induction ts with
  | nil => exact .nil
  | cons t ts ih => exact .token t ih

/-- No number comes right behind another. -/
def Separated (ts : List Token) : Prop :=
  ts.IsChain fun t u => t.isNumber = false ∨ u.isNumber = false

theorem step?_blank {s : Lexer} {found : List Token} {c : Char} (hs : s.Done found)
    (hc : isBlank c) : s.step? c = some ⟨found, .between⟩ := by
  simp only [isBlank, Bool.or_eq_true, decide_eq_true_eq] at hc
  rcases hc with ((rfl | rfl) | rfl) | rfl <;> exact hs.step? (by decide)

/-- The induction is on the text; a number that could still go on is kept from doing so by the
blank or by the first character of the token behind it. -/
theorem foldlM_of_spells {ts : List Token} {cs : List Char} (h : Spells ts cs)
    (proper : ∀ t ∈ ts, t.Proper) (separated : Separated ts) {s : Lexer} {found : List Token}
    (hs : s.Done found) (first : s.mode = .between ∨ ∀ t ∈ ts.head?, t.isNumber = false) :
    (cs.foldlM Lexer.step? s).bind Lexer.finish? = some (found.reverse ++ ts) := by
  induction h generalizing s found with
  | nil => simpa using hs.finish?
  | blank c hc rest ih =>
      rw [List.foldlM_cons, step?_blank hs hc]
      exact ih proper separated (.between found) (.inl rfl)
  | @token ts cs t rest ih =>
      obtain ⟨next, hnext, hdone, hmode⟩ := Token.foldlM_chars (proper t List.mem_cons_self) found
      have hread : t.chars.foldlM Lexer.step? s = some next := by
        rcases first with hbetween | hnumber
        · cases hs with
          | between => exact hnext
          | number => cases hbetween
        · obtain ⟨c, cs, hcs, hends⟩ := Token.exists_chars_eq_cons (hnumber t rfl)
          rw [hcs, List.foldlM_cons] at hnext ⊢
          rwa [hs.step? hends]
      obtain ⟨hhead, htail⟩ := List.isChain_cons.mp separated
      rw [List.foldlM_append, hread]
      have := ih (fun u hu => proper u (List.mem_cons_of_mem t hu)) htail hdone
        (hmode.imp_right fun ht u hu => (hhead u hu).resolve_left (by simp [ht]))
      simpa using this

/-- A text that spells tokens is read as these tokens. -/
theorem lex?_of_spells {ts : List Token} {text : String} (h : Spells ts text.toList)
    (proper : ∀ t ∈ ts, t.Proper) (separated : Separated ts) : lex? text = some ts :=
  foldlM_of_spells h proper separated (.between []) (.inl rfl)

end ClassTables.Json
