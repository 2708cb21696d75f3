import ClassTables.Text.Case
import Mathlib
/-!
# Small letters of ASCII

Case conversion follows the tables of Unicode.  What symbols need of them is little: a text in
capitals holds no small letter of ASCII, and a text in small letters keeps those it has.
-/

namespace ClassTables.Text

variable {c d : Char} {s : String}

theorem isLower_iff : c.isLower = true ↔ 97 ≤ c.toNat ∧ c.toNat ≤ 122 := by
  simp [Char.isLower, UInt32.le_iff_toNat_le, ← Char.toNat_val]

theorem isUpper_iff : c.isUpper = true ↔ 65 ≤ c.toNat ∧ c.toNat ≤ 90 := by
  simp [Char.isUpper, UInt32.le_iff_toNat_le, ← Char.toNat_val]

theorem le_of_isLower_ofNat {n : Nat} (h : (Char.ofNat n).isLower = true) : 97 ≤ n ∧ n ≤ 122 := by
  rw [isLower_iff, Char.toNat_ofNat] at h
  split at h
  · exact h
  · omega

/-! ## Capitals -/

/-- No run of capitals meets the small letters of ASCII. -/
theorem capitalShifts_apart : ∀ r ∈ capitalShifts,
    (r.last : Int) + r.delta < 97 ∨ (122 : Int) < r.first + r.delta := by decide +kernel

theorem longCapitals_apart : ∀ e ∈ longCapitals, ∀ n ∈ e.2, (Char.ofNat n).isLower = false := by
  decide +kernel

theorem isLower_eq_false_of_shifted? {n : Nat} (h : shifted? capitalShifts n = some d) :
    d.isLower = false := by
  obtain ⟨r, hr, rfl⟩ := Option.map_eq_some_iff.mp h
  have hcovers := List.find?_some hr
  have hapart := capitalShifts_apart r (List.mem_of_find?_eq_some hr)
  simp only [CaseShift.covers, Bool.and_eq_true, decide_eq_true_eq] at hcovers
  rw [Bool.eq_false_iff]
  intro hlower
  have hrange := le_of_isLower_ofNat hlower
  omega

theorem isLower_eq_false_of_mem_capital (h : d ∈ capital c) : d.isLower = false := by
  unfold capital at h
  split at h
  · rw [List.mem_singleton.mp h]
    exact c.isLower_toUpper_eq_false
  · split at h
    · next ns hlong =>
        obtain ⟨n, hn, rfl⟩ := List.mem_map.mp h
        obtain ⟨front, back, hsplit, -⟩ := List.lookup_eq_some_iff.mp hlong
        exact longCapitals_apart _ (hsplit ▸ List.mem_append_right _ List.mem_cons_self) n hn
    · rw [List.mem_singleton.mp h]
      cases hshift : shifted? capitalShifts c.toNat with
      | some d => exact isLower_eq_false_of_shifted? hshift
      | none =>
          rw [Option.getD_none, Bool.eq_false_iff, ne_eq, isLower_iff]
          omega

/-- **A text in capitals holds no small letter.** -/
theorem isLower_eq_false_of_mem_toUpper (h : d ∈ (toUpper s).toList) : d.isLower = false := by
  rw [toUpper, String.toList_ofList] at h
  obtain ⟨c, -, hd⟩ := List.mem_flatMap.mp h
  exact isLower_eq_false_of_mem_capital hd

/-! ## Small letters -/

theorem smallChars_cons_of_ascii {before cs : List Char} (h : c.toNat < 128) :
    smallChars before (c :: cs) = c.toLower :: smallChars (c :: before) cs := by
  rw [smallChars, if_neg (by omega), small, if_pos h]
  rfl

theorem mem_smallChars (hc : c.isLower = true) : ∀ {before cs : List Char}, c ∈ cs →
    c ∈ smallChars before cs
  | before, d :: cs, h => by
      rcases List.mem_cons.mp h with rfl | h
      · have hrange := isLower_iff.mp hc
        have hstays : c.toLower = c :=
          Char.toLower_eq_of_not_isUpper (Char.not_isUpper_of_isLower hc)
        rw [smallChars_cons_of_ascii (by omega), hstays]
        exact List.mem_cons_self
      · rw [smallChars]
        exact List.mem_append_right _ (mem_smallChars hc h)

/-- **A text in small letters keeps those it has.** -/
theorem mem_toLower (hc : c.isLower = true) (h : c ∈ s.toList) : c ∈ (toLower s).toList := by
  rw [toLower, String.toList_ofList]
  exact mem_smallChars hc h

/-- A capital that a text starts with becomes a small letter. -/
theorem exists_toLower_eq_cons {cs : List Char} (hc : c.isUpper = true) (h : s.toList = c :: cs) :
    ∃ d ds, (toLower s).toList = d :: ds ∧ d.isLower = true := by
  have hrange := isUpper_iff.mp hc
  refine ⟨c.toLower, smallChars [c] cs, ?_, ?_⟩
  · rw [toLower, String.toList_ofList, h, smallChars_cons_of_ascii (by omega)]
  · simp [Char.isAlpha, hc]

end ClassTables.Text
