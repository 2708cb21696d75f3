import ClassTables.Hierarchy.Build
import ClassTables.Proofs.Drafts
import Mathlib.Data.List.Forall2
/-!
# Include guards

The guard of a class header is its path with some of it lost: case is folded, and all but ASCII
letters and digits are made underscores.  What is lost is named by `Alike`, so two class headers have
one guard exactly where their paths are alike character by character (`same_guard_iff`).  The guards
of the other headers start differently.

`twoKeepers_clash` shows two classes whose headers have one guard.
-/

namespace ClassTables

/-! ## Guards of files -/

/-- The macro of a guard: none of what stands inside is read once it is defined, and it is defined
first of all. -/
def Item.guard? : Item → Option String
  | .cond ⟨.ifUndefined, macroName, _, _⟩ (.define d :: _) =>
    if d.name = macroName then some macroName else none
  | _ => none

/-- The guards that a file is read behind. -/
def Fragment.guards (f : Fragment) : List String := f.filterMap Item.guard?

section Frames

variable (f : Frame)

theorem guard?_commentItem (text : String) : (commentItem text).guard? = none := by
  unfold commentItem
  split <;> rfl

theorem guards_before : f.before.guards = [] := by
  unfold Frame.before Fragment.guards
  split
  · rfl
  · rw [List.filterMap_cons_none (guard?_commentItem f.top)]
    rfl

theorem guards_after : f.after.guards = [] := by
  unfold Frame.after Fragment.guards
  split
  · rfl
  · rw [List.filterMap_cons_none rfl, List.filterMap_cons_none (guard?_commentItem f.bottom)]
    rfl

/-- A header has the guard that it is given, and no other. -/
theorem guards_guarded (guard : String) (body : Fragment) :
    (f.guarded guard body).guards = [guard] := by
  have hitem : (guardItem guard body).guard? = some guard := if_pos rfl
  unfold Frame.guarded Frame.wrap Fragment.guards
  rw [List.filterMap_append, List.filterMap_append, List.filterMap_cons_some hitem,
    List.filterMap_nil]
  have hbefore : f.before.filterMap Item.guard? = [] := guards_before f
  have hafter : f.after.filterMap Item.guard? = [] := guards_after f
  rw [hbefore, hafter]
  rfl

end Frames

/-! ## What a guard forgets of a path -/

/-- Characters that a guard does not tell apart: a letter in either case, or two characters that are
neither letters nor digits. -/
def Alike (c d : Char) : Prop :=
  c.isAlphanum = d.isAlphanum ∧ (c.isAlphanum = true → c.toUpper = d.toUpper)

instance (c d : Char) : Decidable (Alike c d) := inferInstanceAs (Decidable (_ ∧ _))

/-- A letter or digit in capitals is not an underscore. -/
theorem toUpper_ne_underscore {c : Char} (h : c.isAlphanum = true) : c.toUpper ≠ '_' := by
  intro heq
  unfold Char.toUpper at heq
  split at heq
  · next hlower =>
      -- small letters move down by 32, and none of them stands 32 above the underscore
      have hlow : 97 ≤ c.val.toNat := UInt32.le_iff_toNat_le.mp hlower.1
      have hhigh : c.val.toNat ≤ 122 := UInt32.le_iff_toNat_le.mp hlower.2
      have hsum := congrArg UInt32.toNat (congrArg Char.val heq)
      have hshift : ('A'.val - 'a'.val).toNat = 4294967264 := by decide
      have hunderscore : '_'.val.toNat = 95 := rfl
      rw [UInt32.toNat_add, hshift, hunderscore] at hsum
      omega
  · subst heq
    cases h

theorem guardChar_eq_iff {c d : Char} : guardChar c = guardChar d ↔ Alike c d := by
  unfold guardChar Alike
  cases hc : c.isAlphanum <;> cases hd : d.isAlphanum
  · simp
  · simpa using (toUpper_ne_underscore hd).symm
  · simpa using toUpper_ne_underscore hc
  · simp

/-- **Two paths have one guard exactly where they are alike, character by character.** -/
theorem headerGuard_eq_iff {p q : String} :
    headerGuard p = headerGuard q ↔ List.Forall₂ Alike p.toList q.toList := by
  have hchars : List.Forall₂ Alike p.toList q.toList ↔
      p.toList.map guardChar = q.toList.map guardChar := by
    rw [← List.forall₂_eq_eq_eq, List.forall₂_map_left_iff, List.forall₂_map_right_iff]
    simp only [guardChar_eq_iff]
  rw [hchars, headerGuard, headerGuard, ← String.toList_inj, String.toList_append,
    String.toList_append, List.append_cancel_left_eq, String.toList_ofList, String.toList_ofList]

/-! ## The guards of the other headers -/

/-- The guard of a class header starts with another letter than those of the other headers. -/
theorem headerGuard_ne_of_head {guard : String} (h : guard.toList.head? = some 'C') (path : String) :
    headerGuard path ≠ guard := by
  rintro rfl
  rw [headerGuard, String.toList_append] at h
  simp at h

theorem head?_parcelGuard (p : Parcel) : p.headerGuard.toList.head? = some 'C' := by
  rw [Parcel.headerGuard, String.append_assoc, String.toList_append]
  rfl

namespace Bindings

variable {b : Bindings} {path : String} {f : Fragment}

theorem guards_classHeader (h : b.classHeader path = .ok f) : f.guards = [headerGuard path] := by
  unfold classHeader at h
  split at h
  · cases h
  · cases h
    exact guards_guarded b.frame _ _

/-- **What the guards of class headers tell apart.**  Each header of a class is made, with one guard.
Two of them have the same guard exactly where their paths differ by case and by what stands for other
characters than letters and digits, and none has the guard of a parcel's header, of that of the
platform or of that of the callbacks. -/
theorem same_guard_iff (b : Bindings) {p q : String}
    (hp : p ∈ Hierarchy.headersOf b.hierarchy.classes)
    (hq : q ∈ Hierarchy.headersOf b.hierarchy.classes) :
    ∃ (f k : Fragment) (g g' : String), b.classHeader p = .ok f ∧ b.classHeader q = .ok k ∧
      f.guards = [g] ∧ k.guards = [g'] ∧
      (g = g' ↔ List.Forall₂ Alike p.toList q.toList) ∧
      (∀ parcel ∈ b.hierarchy.parcels, ∃ other, (b.parcelHeader parcel).guards = [other] ∧ g ≠ other) ∧
      (∃ other, b.platformHeader.guards = [other] ∧ g ≠ other) ∧
      ∃ other, b.callbacksHeader.guards = [other] ∧ g ≠ other := by
  obtain ⟨f, hf⟩ := exists_classHeader hp
  obtain ⟨k, hk⟩ := exists_classHeader hq
  refine ⟨f, k, headerGuard p, headerGuard q, hf, hk, guards_classHeader hf, guards_classHeader hk,
    headerGuard_eq_iff, ?_, ?_, ?_⟩
  · intro parcel _
    exact ⟨_, guards_guarded _ _ _, headerGuard_ne_of_head (head?_parcelGuard parcel) p⟩
  · exact ⟨_, guards_guarded _ _ _, headerGuard_ne_of_head rfl p⟩
  · exact ⟨_, guards_guarded _ _ _, headerGuard_ne_of_head rfl p⟩

end Bindings

/-! ## Two headers with one guard -/

/-- A class of a zoo, and another one. -/
def twoKeepers (second : String) : Declarations :=
  { parcels := [{ name := "Zoo" }]
    classes := [{ name := "Zoo::Keeper", parcel := "Zoo" }, { name := second, parcel := "Zoo" }] }

/-- A keeper and a visitor have guards of their own. -/
theorem twoKeepers_apart : ∃ b : Bindings, (twoKeepers "Zoo::Visitor").build = .ok b.hierarchy ∧
    ∃ (f k : Fragment) (g g' : String), b.classHeader "Zoo/Keeper.h" = .ok f ∧
      b.classHeader "Zoo/Visitor.h" = .ok k ∧ f.guards = [g] ∧ k.guards = [g'] ∧ g ≠ g' := by
  let h : Hierarchy := (twoKeepers "Zoo::Visitor").build.toOption.getD ⟨[], [], []⟩
  let b : Bindings := { hierarchy := h }
  have hb : (twoKeepers "Zoo::Visitor").build = .ok b.hierarchy := by decide +kernel
  have hheaders : Hierarchy.headersOf b.hierarchy.classes = ["Zoo/Keeper.h", "Zoo/Visitor.h"] := by
    decide +kernel
  have hkeeper : "Zoo/Keeper.h" ∈ Hierarchy.headersOf b.hierarchy.classes := by simp [hheaders]
  have hvisitor : "Zoo/Visitor.h" ∈ Hierarchy.headersOf b.hierarchy.classes := by simp [hheaders]
  obtain ⟨f, k, g, g', hf, hk, hg, hg', hiff, -⟩ := b.same_guard_iff hkeeper hvisitor
  refine ⟨b, hb, f, k, g, g', hf, hk, hg, hg', ?_⟩
  rw [ne_eq, hiff]
  decide

/-- **Two headers with one guard:** what is read second of `Zoo/Keeper.h` and `Zoo_Keeper.h` is lost. -/
theorem twoKeepers_clash : ∃ b : Bindings, (twoKeepers "Zoo_Keeper").build = .ok b.hierarchy ∧
    ∃ f k : Fragment, b.classHeader "Zoo/Keeper.h" = .ok f ∧ b.classHeader "Zoo_Keeper.h" = .ok k ∧
      "Zoo/Keeper.h" ≠ "Zoo_Keeper.h" ∧ f.guards = ["H_ZOO_KEEPER_H"] ∧
      k.guards = ["H_ZOO_KEEPER_H"] := by
  let h : Hierarchy := (twoKeepers "Zoo_Keeper").build.toOption.getD ⟨[], [], []⟩
  let b : Bindings := { hierarchy := h }
  have hb : (twoKeepers "Zoo_Keeper").build = .ok b.hierarchy := by decide +kernel
  have hheaders : Hierarchy.headersOf b.hierarchy.classes = ["Zoo/Keeper.h", "Zoo_Keeper.h"] := by
    decide +kernel
  have hkeeper : "Zoo/Keeper.h" ∈ Hierarchy.headersOf b.hierarchy.classes := by simp [hheaders]
  have hother : "Zoo_Keeper.h" ∈ Hierarchy.headersOf b.hierarchy.classes := by simp [hheaders]
  obtain ⟨f, hf⟩ := Bindings.exists_classHeader hkeeper
  obtain ⟨k, hk⟩ := Bindings.exists_classHeader hother
  exact ⟨b, hb, f, k, hf, hk, by decide, Bindings.guards_classHeader hf,
    Bindings.guards_classHeader hk⟩

end ClassTables
