import ClassTables.CType
import Mathlib.Data.List.Basic
/-!
# Qualifiers and the layout of a type

The layout of a type is decided in two ways: a scalar by the words that remain without the
qualifiers, a pointer by the last character of the whole spelling.  For both it is enough to know the
words, since the last character of a trimmed text is that of its last word
(`CType.isPointer_ofText_iff`).

So qualifiers do not count, except behind the last star: `char *` and `const char *` are pointers, and
`char * const` is neither a pointer nor a scalar (`CType.extent?_of_star`).

Main statement: `CType.extent?_eq_iff`.
-/

namespace ClassTables

/-! ## Words -/

namespace Text

variable {p : Char → Bool} {c : Char}

/-- Any other character at the end belongs to the last piece. -/
theorem pieces_concat (hc : p c = false) : ∀ cs : List Char,
    ∃ ws w, pieces p cs = ws ++ [w] ∧ pieces p (cs ++ [c]) = ws ++ [w ++ [c]]
  | [] => ⟨[], [], rfl, by rw [List.nil_append, pieces, hc]; rfl⟩
  | d :: cs => by
      obtain ⟨ws, w, hcs, hconcat⟩ := pieces_concat hc cs
      rw [List.cons_append, pieces, pieces, hcs, hconcat]
      by_cases hd : p d = true
      · exact ⟨[] :: ws, w, by rw [if_pos hd]; rfl, by rw [if_pos hd]; rfl⟩
      · rw [if_neg hd, if_neg hd]
        cases ws with
        | nil => exact ⟨[], d :: w, rfl, rfl⟩
        | cons v vs => exact ⟨(d :: v) :: vs, w, rfl, rfl⟩

/-- The characters of the words of a text. -/
def wordChars (cs : List Char) : List (List Char) := (pieces isBlank cs).filter (!·.isEmpty)

theorem words_ofList (cs : List Char) :
    words (String.ofList cs) = (wordChars cs).map String.ofList := by
  rw [words, String.toList_ofList]
  rfl

theorem wordChars_append_cons (hc : isBlank c = true) (cs ds : List Char) :
    wordChars (cs ++ c :: ds) = wordChars cs ++ wordChars ds := by
  unfold wordChars
  rw [pieces_append_cons hc, List.filter_append]

theorem wordChars_blanks_append {bs : List Char} (h : ∀ c ∈ bs, isBlank c = true) (cs : List Char) :
    wordChars (bs ++ cs) = wordChars cs := by
  induction bs with
  | nil => rfl
  | cons b bs ih =>
      have hb := wordChars_append_cons (h b List.mem_cons_self) [] (bs ++ cs)
      rw [List.cons_append]
      apply hb.trans
      exact ih fun c hc => h c (List.mem_cons_of_mem _ hc)

theorem wordChars_append_blanks {bs : List Char} (h : ∀ c ∈ bs, isBlank c = true) (cs : List Char) :
    wordChars (cs ++ bs) = wordChars cs := by
  cases bs with
  | nil => rw [List.append_nil]
  | cons b bs =>
      have hbs := wordChars_blanks_append (fun c hc => h c (List.mem_cons_of_mem _ hc)) []
      rw [wordChars_append_cons (h b List.mem_cons_self), ← List.append_nil bs, hbs]
      exact List.append_nil _

/-- What trimming takes away is blank, and what stands last after it is not. -/
theorem trimChars_spec (cs : List Char) :
    (∃ front rear, cs = front ++ (trimChars cs ++ rear) ∧ (∀ c ∈ front, isBlank c = true) ∧
      ∀ c ∈ rear, isBlank c = true) ∧
      ∀ c, (trimChars cs).getLast? = some c → isBlank c = false := by
  constructor
  · refine ⟨cs.takeWhile isBlank, ((cs.dropWhile isBlank).reverse.takeWhile isBlank).reverse,
      ?_, ?_, ?_⟩
    · rw [trimChars, ← List.reverse_append, List.takeWhile_append_dropWhile, List.reverse_reverse,
        List.takeWhile_append_dropWhile]
    · intro c hc
      exact List.all_eq_true.mp List.all_takeWhile c hc
    · intro c hc
      exact List.all_eq_true.mp List.all_takeWhile c (List.mem_reverse.mp hc)
  · intro c hc
    rw [trimChars, List.getLast?_reverse] at hc
    have hhead := List.head?_dropWhile_not isBlank (cs.dropWhile isBlank).reverse
    rw [hc] at hhead
    exact hhead

/-- **Trimming keeps the words.** -/
theorem words_trim (s : String) : words (trim s) = words s := by
  obtain ⟨⟨front, rear, hcs, hfront, hrear⟩, -⟩ := trimChars_spec s.toList
  show words (String.ofList (trimChars s.toList)) = (wordChars s.toList).map String.ofList
  rw [words_ofList]
  apply congrArg
  calc wordChars (trimChars s.toList)
    _ = wordChars (trimChars s.toList ++ rear) := (wordChars_append_blanks hrear _).symm
    _ = wordChars (front ++ (trimChars s.toList ++ rear)) :=
        (wordChars_blanks_append hfront _).symm
    _ = wordChars s.toList := congrArg wordChars hcs.symm

/-- **The last character of a trimmed text is that of its last word.** -/
theorem getLast?_trim (s : String) :
    (trim s).toList.getLast? = (words s).getLast?.bind (·.toList.getLast?) := by
  obtain ⟨-, hlast⟩ := trimChars_spec s.toList
  rw [← words_trim s]
  show (String.ofList (trimChars s.toList)).toList.getLast? =
    (words (String.ofList (trimChars s.toList))).getLast?.bind _
  rw [String.toList_ofList, words_ofList]
  rcases List.eq_nil_or_concat' (trimChars s.toList) with hnil | ⟨cs, c, hconcat⟩
  · rw [hnil]
    rfl
  · rw [hconcat] at hlast ⊢
    have hc : isBlank c = false := hlast c List.getLast?_concat
    obtain ⟨ws, w, -, hpieces⟩ := pieces_concat hc cs
    have hwords : wordChars (cs ++ [c]) = ws.filter (!·.isEmpty) ++ [w ++ [c]] := by
      unfold wordChars
      rw [hpieces, List.filter_append]
      simp
    rw [hwords, List.map_append, List.map_singleton, List.getLast?_concat, List.getLast?_concat,
      Option.bind_some, String.toList_ofList, List.getLast?_concat]

/-- The characters of words are there when the words are joined. -/
theorem mem_intercalate {sep w : String} (hc : c ∈ w.toList) : ∀ {ws : List String}, w ∈ ws →
    c ∈ (sep.intercalate ws).toList
  | [v], hw => by
      rw [String.intercalate_singleton, ← List.mem_singleton.mp hw]
      exact hc
  | v :: u :: ws, hw => by
      rw [String.intercalate_cons_cons, String.toList_append, List.mem_append]
      rcases List.mem_cons.mp hw with rfl | hw
      · apply Or.inl
        rw [String.toList_append]
        exact List.mem_append_left _ hc
      · exact Or.inr (mem_intercalate hc hw)

end Text

/-! ## Types -/

namespace CType

open Text (words)

/-- The words of a spelling that are no qualifiers. -/
def unqualifiedWords (s : String) : List String := (words s).filter (!isQualifier ·)

/-- The last word ends in a star. -/
def EndsInStar (ws : List String) : Prop := ∃ w ∈ ws.getLast?, w.toList.getLast? = some '*'

/-- The last word is a qualifier. -/
def EndsInQualifier (ws : List String) : Prop := ∃ w ∈ ws.getLast?, isQualifier w = true

instance (ws : List String) : Decidable (EndsInStar ws) := inferInstanceAs (Decidable (∃ _ ∈ _, _))

instance (ws : List String) : Decidable (EndsInQualifier ws) :=
  inferInstanceAs (Decidable (∃ _ ∈ _, _))

variable {target : Target} {s t : String} {ws : List String}

theorem unqualified_ofText (s : String) :
    (ofText s).unqualified = " ".intercalate (unqualifiedWords s) := by
  rw [unqualified, ofText, Text.words_trim]
  rfl

/-- **A type is taken for a pointer when its last word ends in a star.** -/
theorem isPointer_ofText_iff : (ofText s).isPointer = true ↔ EndsInStar (words s) := by
  rw [isPointer, ofText, Text.getLast?_trim, beq_iff_eq, Option.bind_eq_some_iff]
  rfl

theorem EndsInStar.not_endsInQualifier (h : EndsInStar ws) : ¬ EndsInQualifier ws := by
  rintro ⟨w, hw, hq⟩
  obtain ⟨v, hv, hstar⟩ := h
  cases hv.symm.trans hw
  rcases Bool.or_eq_true_iff.mp hq with heq | heq
  · rw [beq_iff_eq.mp heq] at hstar
    exact absurd hstar (by decide)
  · rw [beq_iff_eq.mp heq] at hstar
    exact absurd hstar (by decide)

/-- The last star is seen when no qualifier stands behind it. -/
theorem endsInStar_iff :
    EndsInStar ws ↔ EndsInStar (ws.filter (!isQualifier ·)) ∧ ¬ EndsInQualifier ws := by
  rcases List.eq_nil_or_concat' ws with rfl | ⟨front, w, rfl⟩
  · simp [EndsInStar]
  · by_cases hq : isQualifier w = true
    · have hends : EndsInQualifier (front ++ [w]) := ⟨w, List.getLast?_concat, hq⟩
      exact iff_of_false (fun h => h.not_endsInQualifier hends) fun h => h.2 hends
    · have hends : ¬ EndsInQualifier (front ++ [w]) := by
        simp [EndsInQualifier, hq]
      have hfilter : (front ++ [w]).filter (!isQualifier ·) =
          front.filter (!isQualifier ·) ++ [w] := by
        rw [List.filter_append]
        simp [hq]
      rw [hfilter, and_iff_left hends]
      simp [EndsInStar]

/-- No scalar is spelled with a star. -/
theorem scalarSize?_eq_none_of_star (h : '*' ∈ s.toList) : scalarSize? target s = none := by
  have hno : ∀ l : List String, (∀ v ∈ l, '*' ∉ v.toList) → s ∉ l := fun l hl hs => hl s hs h
  have hbool : s ≠ "bool" := fun hs => hno ["bool"] (by decide) (List.mem_singleton.mpr hs)
  rw [scalarSize?, if_neg (hno _ (by decide)), if_neg (hno _ (by decide)),
    if_neg (hno _ (by decide)), if_neg (hno _ (by decide)), if_neg (hno _ (by decide)),
    if_neg (hno _ (by decide)), if_neg (hno _ (by decide)), if_neg (hno _ (by decide)),
    if_neg hbool]

/-- **A type that ends in a star without its qualifiers** has the layout of a pointer, but for a
qualifier at its end: then its layout is not known. -/
theorem extent?_of_star (h : EndsInStar (unqualifiedWords s)) :
    (ofText s).extent? target =
      if EndsInQualifier (words s) then none else some (.natural target.pointer) := by
  by_cases hq : EndsInQualifier (words s)
  · have hptr : ¬ (ofText s).isPointer = true := fun hp =>
      (isPointer_ofText_iff.mp hp).not_endsInQualifier hq
    obtain ⟨w, hw, hstar⟩ := h
    have hmem : '*' ∈ (ofText s).unqualified.toList := by
      rw [unqualified_ofText]
      exact Text.mem_intercalate (List.mem_of_getLast? hstar) (List.mem_of_getLast? hw)
    rw [extent?, if_neg hptr, scalarSize?_eq_none_of_star hmem, if_pos hq]
    rfl
  · have hptr : (ofText s).isPointer = true :=
      isPointer_ofText_iff.mpr (endsInStar_iff.mpr ⟨h, hq⟩)
    rw [extent?, if_pos hptr, if_neg hq]

/-- **The layout of any other type** is read off its words without the qualifiers. -/
theorem extent?_of_no_star (h : ¬ EndsInStar (unqualifiedWords s)) :
    (ofText s).extent? target =
      (scalarSize? target (" ".intercalate (unqualifiedWords s))).map .natural := by
  have hptr : ¬ (ofText s).isPointer = true := fun hp =>
    h (endsInStar_iff.mp (isPointer_ofText_iff.mp hp)).1
  rw [extent?, if_neg hptr, unqualified_ofText]

/-- **When qualifiers do not change a layout.**  Two spellings with the same words but for qualifiers
have the same layout on a target, or both have none, exactly when they are no pointers, or a qualifier
stands at the end of both or of neither. -/
theorem extent?_eq_iff (target : Target) {s t : String}
    (h : unqualifiedWords s = unqualifiedWords t) :
    (ofText s).extent? target = (ofText t).extent? target ↔
      (EndsInStar (unqualifiedWords s) →
        (EndsInQualifier (words s) ↔ EndsInQualifier (words t))) := by
  by_cases hstar : EndsInStar (unqualifiedWords s)
  · rw [imp_iff_right hstar, extent?_of_star hstar, extent?_of_star (h ▸ hstar)]
    by_cases hs : EndsInQualifier (words s) <;> by_cases ht : EndsInQualifier (words t) <;>
      simp [hs, ht]
  · rw [extent?_of_no_star hstar, extent?_of_no_star (h ▸ hstar), h]
    exact iff_of_true rfl fun hs => absurd (h ▸ hs) (h ▸ hstar)

/-- A qualifier in front of a pointer, or between its words, does not count. -/
theorem char_pointer_extent :
    unqualifiedWords "const char *" = unqualifiedWords "char volatile *" ∧
      (ofText "const char *").extent? .lp64 = (ofText "char volatile *").extent? .lp64 :=
  ⟨by decide +kernel, (extent?_eq_iff .lp64 (by decide +kernel)).mpr (by decide +kernel)⟩

/-- A qualifier behind the star does: the type of a constant pointer has no layout. -/
theorem const_pointer_extent :
    unqualifiedWords "char* const" = unqualifiedWords "char*" ∧
      (ofText "char*").extent? .lp64 = some ⟨8, 8⟩ ∧
        (ofText "char* const").extent? .lp64 = none := by
  decide +kernel

end CType

end ClassTables
