/-!
# Cutting and patching text

Operations on lists of characters that the rest of the library lifts to strings: cutting at
separators, and replacing a two-character mark.
-/

namespace ClassTables.Text

/-- The stretches between the characters that satisfy `p`; always at least one. -/
def pieces (p : Char → Bool) : List Char → List (List Char)
  | [] => [[]]
  | c :: cs =>
    if p c then [] :: pieces p cs
    else
      match pieces p cs with
      | [] => [[c]]
      | w :: ws => (c :: w) :: ws

theorem pieces_ne_nil (p : Char → Bool) (cs : List Char) : pieces p cs ≠ [] := by
  induction cs with
  | nil => simp [pieces]
  | cons c cs ih =>
    simp only [pieces]
    split
    · simp
    · split <;> simp

/-- No piece holds a separator. -/
theorem not_of_mem_pieces {p : Char → Bool} {cs w : List Char} (hw : w ∈ pieces p cs)
    {c : Char} (hc : c ∈ w) : p c = false := by
  induction cs generalizing w with
  | nil => simp [pieces] at hw; simp [hw] at hc
  | cons d ds ih =>
    simp only [pieces] at hw
    split at hw
    · rcases List.mem_cons.1 hw with rfl | h
      · simp at hc
      · exact ih h hc
    · rename_i hd
      split at hw
      · simp only [List.mem_singleton] at hw
        simp only [hw, List.mem_singleton] at hc
        simpa [hc] using hd
      · rename_i v vs hv
        rcases List.mem_cons.1 hw with rfl | h
        · rcases List.mem_cons.1 hc with rfl | h'
          · simpa using hd
          · exact ih (hv ▸ List.mem_cons_self) h'
        · exact ih (hv ▸ List.mem_cons_of_mem _ h) hc

/-- A separator cuts a text in two. -/
theorem pieces_append_cons {p : Char → Bool} {c : Char} (hc : p c = true) (ds : List Char) :
    ∀ cs : List Char, pieces p (cs ++ c :: ds) = pieces p cs ++ pieces p ds
  | [] => by simp [pieces, hc]
  | d :: cs => by
    obtain ⟨w, ws, hcs⟩ := List.exists_cons_of_ne_nil (pieces_ne_nil p cs)
    rw [List.cons_append, pieces, pieces, pieces_append_cons hc ds cs, hcs]
    by_cases hd : p d = true
    · rw [if_pos hd, if_pos hd]
      rfl
    · rw [if_neg hd, if_neg hd]
      rfl

/-- Puts `sep` between the pieces. -/
def joinPieces (sep : List Char) : List (List Char) → List Char
  | [] => []
  | [w] => w
  | w :: ws => w ++ sep ++ joinPieces sep ws

/-- Replaces each occurrence of the mark `a b`, from left to right and without overlaps. -/
def replacePair (a b : Char) (new : List Char) : List Char → List Char
  | c :: d :: cs =>
    if c = a ∧ d = b then new ++ replacePair a b new cs
    else c :: replacePair a b new (d :: cs)
  | cs => cs

/-- What follows the last occurrence of the mark `a b`, or everything when there is none. -/
def afterLastPair (a b : Char) (cs : List Char) : List Char :=
  go cs cs
where
  go (best : List Char) : List Char → List Char
    | c :: d :: cs => go (if c = a ∧ d = b then cs else best) (d :: cs)
    | _ => best

/-- The text before and after the first `d`, if there is one. -/
def splitOnce? (d : Char) (cs : List Char) : Option (List Char × List Char) :=
  match cs.dropWhile (· != d) with
  | [] => none
  | _ :: rest => some (cs.takeWhile (· != d), rest)

/-- Whether the mark `a b` occurs. -/
def hasPair (a b : Char) : List Char → Bool
  | c :: d :: cs => (c == a && d == b) || hasPair a b (d :: cs)
  | _ => false

end ClassTables.Text
