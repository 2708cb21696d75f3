import Mathlib.Data.List.Forall2
import Mathlib.Data.List.Nodup
/-!
# Lists of named things, and checks along a list

The passes of this library walk along a list with the names seen so far, look things up by name,
and stop at the first refusal.  These are the facts that all of them share.
-/

namespace ClassTables

/-! ## Pairs along two lists -/

theorem exists_mem_of_forall₂ {α β : Type} {R : α → β → Prop} {l : List α} {l' : List β}
    (h : List.Forall₂ R l l') {x : α} (hx : x ∈ l) : ∃ y ∈ l', R x y := by
  induction h with
  | nil => cases hx
  | cons hy hys ih =>
      rcases List.mem_cons.mp hx with rfl | hx
      · exact ⟨_, List.mem_cons_self, hy⟩
      · obtain ⟨y, hmem, hy⟩ := ih hx
        exact ⟨y, List.mem_cons_of_mem _ hmem, hy⟩

theorem exists_getElem?_of_forall₂ {α β : Type} {R : α → β → Prop} {l : List α} {l' : List β}
    (h : List.Forall₂ R l l') {i : Nat} {x : α} (hx : l[i]? = some x) :
    ∃ y, l'[i]? = some y ∧ R x y := by
  obtain ⟨hlt, rfl⟩ := List.getElem?_eq_some_iff.mp hx
  have hlt' : i < l'.length := h.length_eq ▸ hlt
  exact ⟨l'[i], List.getElem?_eq_getElem hlt', h.get hlt hlt'⟩

/-! ## Refusals -/

section Outcomes

variable {ε α β : Type}

theorem bind_eq_ok_iff {x : Except ε α} {f : α → Except ε β} {b : β} :
    (x >>= f) = .ok b ↔ ∃ a, x = .ok a ∧ f a = .ok b := by
  cases x with
  | error e => exact ⟨fun h => (nomatch h), fun ⟨_, h, _⟩ => (nomatch h)⟩
  | ok a =>
      constructor
      · intro h
        exact ⟨a, rfl, h⟩
      · rintro ⟨_, ⟨⟩, h⟩
        exact h

/-- A check followed by something else. -/
theorem unit_bind_eq_ok_iff {x : Except ε Unit} {f : Unit → Except ε β} {b : β} :
    (x >>= f) = .ok b ↔ x = .ok () ∧ f () = .ok b := by
  rw [bind_eq_ok_iff]
  exact ⟨fun ⟨_, h⟩ => h, fun h => ⟨(), h⟩⟩

theorem bind_eq_error_iff {x : Except ε α} {f : α → Except ε β} {e : ε} :
    (x >>= f) = .error e ↔ x = .error e ∨ ∃ a, x = .ok a ∧ f a = .error e := by
  cases x with
  | error e' =>
      constructor
      · rintro ⟨⟩
        exact Or.inl rfl
      · rintro (h | ⟨_, h, _⟩)
        · cases h
          rfl
        · cases h
  | ok a =>
      constructor
      · intro h
        exact Or.inr ⟨a, rfl, h⟩
      · rintro (h | ⟨_, ⟨⟩, h⟩)
        · cases h
        · exact h

theorem map_eq_ok_iff {x : Except ε α} {f : α → β} {b : β} :
    x.map f = .ok b ↔ ∃ a, x = .ok a ∧ f a = b := by
  cases x <;> simp [Except.map]

theorem map_eq_error_iff {x : Except ε α} {f : α → β} {e : ε} : x.map f = .error e ↔ x = .error e := by
  cases x <;> simp [Except.map]

/-- A check along a list passes when it passes everywhere. -/
theorem forM_eq_ok_iff {f : α → Except ε Unit} : ∀ {l : List α},
    l.forM f = .ok () ↔ ∀ x ∈ l, f x = .ok ()
  | [] => by simp [pure, Except.pure]
  | x :: xs => by
      rw [List.forM, unit_bind_eq_ok_iff, List.forall_mem_cons]
      exact and_congr_right fun _ => forM_eq_ok_iff

/-- A step along a list answers when it answers everywhere. -/
theorem mapM_eq_ok_iff {f : α → Except ε β} : ∀ {l : List α} {l' : List β},
    l.mapM f = .ok l' ↔ List.Forall₂ (fun x y => f x = .ok y) l l'
  | [], l' => by cases l' <;> simp [pure, Except.pure]
  | x :: xs, l' => by
      rw [List.mapM_cons, bind_eq_ok_iff]
      simp only [bind_eq_ok_iff, mapM_eq_ok_iff]
      constructor
      · rintro ⟨y, hy, ys, hys, ⟨⟩⟩
        exact .cons hy hys
      · rintro (_ | ⟨hy, hys⟩)
        exact ⟨_, hy, _, hys, rfl⟩

/-- Steps that agree along a list have the same answers. -/
theorem mapM_congr {f g : α → Except ε β} : ∀ {l : List α}, (∀ x ∈ l, f x = g x) →
    l.mapM f = l.mapM g
  | [], _ => rfl
  | x :: xs, h => by
      obtain ⟨hx, hxs⟩ := List.forall_mem_cons.mp h
      rw [List.mapM_cons, List.mapM_cons, hx, mapM_congr hxs]

/-- A step along a list fails where it fails first. -/
theorem mapM_eq_error_iff {f : α → Except ε β} {e : ε} : ∀ {l : List α},
    l.mapM f = .error e ↔ ∃ pre x post, l = pre ++ x :: post ∧ (∀ y ∈ pre, ∃ b, f y = .ok b) ∧
      f x = .error e
  | [] => by simp [pure, Except.pure]
  | x :: xs => by
      have hdone : ∀ (y : β) (ys : List β), (pure (y :: ys) : Except ε (List β)) ≠ .error e :=
        fun _ _ h => nomatch h
      rw [List.mapM_cons, bind_eq_error_iff]
      simp only [bind_eq_error_iff, mapM_eq_error_iff, hdone, and_false, exists_false, or_false]
      constructor
      · rintro (hx | ⟨b, hx, pre, z, post, rfl, hpre, hz⟩)
        · exact ⟨[], x, xs, rfl, fun _ h => (nomatch h), hx⟩
        · exact ⟨x :: pre, z, post, rfl, List.forall_mem_cons.mpr ⟨⟨b, hx⟩, hpre⟩, hz⟩
      · rintro ⟨pre, z, post, heq, hpre, hz⟩
        cases pre with
        | nil =>
            obtain ⟨rfl, -⟩ := List.cons.inj heq
            exact Or.inl hz
        | cons y pre =>
            obtain ⟨rfl, rfl⟩ := List.cons.inj heq
            obtain ⟨⟨b, hx⟩, hpre⟩ := List.forall_mem_cons.mp hpre
            exact Or.inr ⟨b, hx, pre, z, post, rfl, hpre, hz⟩

/-- What a step along a list has passed, it answers with something in the answer. -/
theorem exists_mem_of_mapM {f : α → Except ε β} {l : List α} {l' : List β} (h : l.mapM f = .ok l')
    {x : α} (hx : x ∈ l) : ∃ y ∈ l', f x = .ok y :=
  exists_mem_of_forall₂ (mapM_eq_ok_iff.mp h) hx

theorem exists_ok_of_mapM {f : α → Except ε β} {l : List α} {l' : List β} (h : l.mapM f = .ok l')
    {x : α} (hx : x ∈ l) : ∃ y, f x = .ok y := by
  obtain ⟨y, -, hy⟩ := exists_mem_of_mapM h hx
  exact ⟨y, hy⟩

/-- A step that answers everywhere along a list answers along the list. -/
theorem exists_mapM_eq_ok {f : α → Except ε β} : ∀ {l : List α}, (∀ x ∈ l, ∃ y, f x = .ok y) →
    ∃ l', l.mapM f = .ok l'
  | [], _ => ⟨[], rfl⟩
  | x :: xs, h => by
      obtain ⟨⟨y, hy⟩, hxs⟩ := List.forall_mem_cons.mp h
      obtain ⟨ys, hys⟩ := exists_mapM_eq_ok hxs
      exact ⟨y :: ys, mapM_eq_ok_iff.mpr (.cons hy (mapM_eq_ok_iff.mp hys))⟩

end Outcomes

/-! ## Names seen before -/

section Names

variable {α : Type} {key : α → String}

/-- The names of a list are distinct, and none is among those seen before. -/
def FreshNames (key : α → String) (seen : List String) (l : List α) : Prop :=
  (∀ x ∈ l, key x ∉ seen) ∧ (l.map key).Nodup

@[simp] theorem freshNames_nil {seen : List String} : FreshNames key seen [] := by
  simp [FreshNames]

theorem freshNames_cons {seen : List String} {x : α} {l : List α} :
    FreshNames key seen (x :: l) ↔ key x ∉ seen ∧ FreshNames key (key x :: seen) l := by
  rw [FreshNames, FreshNames, List.forall_mem_cons, List.map_cons, List.nodup_cons]
  simp only [List.mem_map, List.mem_cons, not_or, not_exists, not_and]
  constructor
  · rintro ⟨⟨hx, hl⟩, hne, hnd⟩
    exact ⟨hx, fun y hy => ⟨hne y hy, hl y hy⟩, hnd⟩
  · rintro ⟨hx, hl, hnd⟩
    exact ⟨⟨hx, fun y hy => (hl y hy).2⟩, fun y hy => (hl y hy).1, hnd⟩

theorem freshNames_nil_iff {l : List α} : FreshNames key [] l ↔ (l.map key).Nodup := by
  simp [FreshNames]

/-- With distinct names behind them, fresh names are what keeps the whole distinct. -/
theorem nodup_append_iff_freshNames {seen : List String} {l : List α} :
    (seen ++ l.map key).Nodup ↔ seen.Nodup ∧ FreshNames key seen l := by
  rw [List.nodup_append', FreshNames]
  constructor
  · rintro ⟨hs, hl, hdis⟩
    exact ⟨hs, fun x hx hmem => hdis hmem (List.mem_map_of_mem hx), hl⟩
  · rintro ⟨hs, hfresh, hl⟩
    refine ⟨hs, hl, fun n hn hmem => ?_⟩
    obtain ⟨x, hx, rfl⟩ := List.mem_map.mp hmem
    exact hfresh x hx hn

/-! ## Looking up by name -/

theorem isSome_eq_decide {o : Option α} {p : Prop} [Decidable p] (h : o = none ↔ ¬ p) :
    o.isSome = decide p := by
  cases o with
  | none => rw [decide_eq_false (h.mp rfl), Option.isSome_none]
  | some x =>
      have hp : p := by
        by_contra hp
        exact nomatch h.mpr hp
      rw [decide_eq_true hp, Option.isSome_some]

/-- Under distinct names a thing is found by its own name. -/
theorem find?_key_eq_some_iff {κ : Type} [BEq κ] [LawfulBEq κ] {key : α → κ} {l : List α}
    (hnd : (l.map key).Nodup) {n : κ} {x : α} :
    l.find? (fun y => key y == n) = some x ↔ x ∈ l ∧ key x = n := by
  constructor
  · intro h
    exact ⟨List.mem_of_find?_eq_some h, by simpa using List.find?_some h⟩
  · rintro ⟨hx, rfl⟩
    cases h : l.find? (fun y => key y == key x) with
    | none =>
        rw [List.find?_eq_none] at h
        exact absurd (beq_iff_eq.mpr rfl) (h x hx)
    | some y =>
        have hy := List.mem_of_find?_eq_some h
        have hyx : key y = key x := by simpa using List.find?_some h
        rw [List.inj_on_of_nodup_map hnd hy hx hyx]

/-- Under distinct names it does not matter where a thing stands. -/
theorem find?_key_perm {l l' : List α} (hnd : (l.map key).Nodup) (h : l.Perm l') (n : String) :
    l.find? (fun y => key y == n) = l'.find? (fun y => key y == n) := by
  have hnd' : (l'.map key).Nodup := (h.map key).nodup_iff.mp hnd
  apply Option.ext
  intro x
  rw [find?_key_eq_some_iff hnd, find?_key_eq_some_iff hnd', h.mem_iff]

theorem find?_key_eq_none_iff {l : List α} {n : String} :
    l.find? (fun y => key y == n) = none ↔ n ∉ l.map key := by
  simp [List.find?_eq_none]

/-- Under distinct names the place of a thing is found by its name. -/
theorem findIdx?_key_eq_some_iff {l : List α} (hnd : (l.map key).Nodup) {n : String} {i : Nat} :
    l.findIdx? (fun y => key y == n) = some i ↔ (l.map key)[i]? = some n := by
  have hmp : ∀ {j}, l.findIdx? (fun y => key y == n) = some j → (l.map key)[j]? = some n := by
    intro j hj
    obtain ⟨hlt, hkey, -⟩ := List.findIdx?_eq_some_iff_getElem.mp hj
    rw [List.getElem?_map, List.getElem?_eq_getElem hlt, Option.map_some, beq_iff_eq.mp hkey]
  constructor
  · exact hmp
  · intro hi
    obtain ⟨hlt, -⟩ := List.getElem?_eq_some_iff.mp hi
    cases hj : l.findIdx? (fun y => key y == n) with
    | none =>
        obtain ⟨x, hx, hname⟩ := List.mem_map.mp (List.mem_of_getElem? hi)
        have hne := List.findIdx?_eq_none_iff.mp hj x hx
        rw [hname, beq_self_eq_true] at hne
        cases hne
    | some j => rw [(List.getElem?_inj hlt hnd).mp (hi.trans (hmp hj).symm)]

theorem exists_find?_key_iff {l : List α} {n : String} :
    (∃ x, l.find? (fun y => key y == n) = some x) ↔ n ∈ l.map key := by
  rw [← Option.isSome_iff_exists, List.find?_isSome]
  simp

end Names

/-! ## Names in order -/

/-- Every name stands behind those that it needs. -/
def NeedsFirst (needs : String → List String) (l : List String) : Prop :=
  ∀ pre n post, l = pre ++ n :: post → ∀ k ∈ needs n, k ∈ pre

section Needs

variable {needs needs' : String → List String} {l : List String} {n : String}

theorem needsFirst_nil : NeedsFirst needs [] := by
  intro pre n post h
  cases pre <;> cases h

theorem NeedsFirst.congr (h : NeedsFirst needs l) (heq : ∀ n ∈ l, needs' n = needs n) :
    NeedsFirst needs' l := by
  intro pre n post hl k hk
  rw [heq n (hl ▸ List.mem_append_cons_self)] at hk
  exact h pre n post hl k hk

theorem NeedsFirst.concat (h : NeedsFirst needs l) (hn : ∀ k ∈ needs n, k ∈ l) :
    NeedsFirst needs (l ++ [n]) := by
  intro pre m post hl k hk
  -- either the name is the last one, or it stands where it did
  rcases List.eq_nil_or_concat post with rfl | ⟨post, m', rfl⟩
  · obtain ⟨rfl, heq⟩ := List.append_inj' hl rfl
    cases heq
    exact hn k hk
  · rw [List.concat_eq_append, ← List.cons_append, ← List.append_assoc] at hl
    obtain ⟨hl, -⟩ := List.append_inj' hl rfl
    exact h pre m post hl k hk

/-- What stands at the front needs nothing behind it. -/
theorem NeedsFirst.of_append {l' : List String} (h : NeedsFirst needs (l ++ l')) :
    NeedsFirst needs l := by
  intro pre n post hl k hk
  apply h pre n (post ++ l') _ k hk
  rw [hl, List.append_assoc, List.cons_append]

end Needs

/-! ## Where an item stands -/

section Positions

variable {α β : Type} {l l' x y : List α} {a : α}

/-- An item of two lists in a row stands in one of them. -/
theorem append_eq_append_cons (h : l ++ l' = x ++ a :: y) :
    (∃ y', l = x ++ a :: y' ∧ y = y' ++ l') ∨ ∃ x', l' = x' ++ a :: y ∧ x = l ++ x' := by
  rcases List.append_eq_append_iff.mp h with ⟨x', hx, hl'⟩ | ⟨z, hl, hz⟩
  · exact Or.inr ⟨x', hl', hx⟩
  · cases z with
    | nil => exact Or.inr ⟨[], hz.symm, by simpa using hl.symm⟩
    | cons a' y' =>
        obtain ⟨rfl, rfl⟩ := List.cons_eq_cons.mp hz
        exact Or.inl ⟨y', hl, rfl⟩

/-- What is not in the first list stands in the second. -/
theorem eq_append_cons_of_not_mem (h : l ++ l' = x ++ a :: y) (ha : a ∉ l) :
    ∃ x', l' = x' ++ a :: y ∧ x = l ++ x' := by
  refine (append_eq_append_cons h).resolve_left ?_
  rintro ⟨y', rfl, -⟩
  exact ha (by simp)

theorem eq_append_cons_of_not_mem_right (h : l ++ l' = x ++ a :: y) (ha : a ∉ l') :
    ∃ y', l = x ++ a :: y' ∧ y = y' ++ l' := by
  refine (append_eq_append_cons h).resolve_right ?_
  rintro ⟨x', rfl, -⟩
  exact ha (by simp)

theorem flatMap_eq_append_cons {f : β → List α} : ∀ {bs : List β} {x : List α},
    bs.flatMap f = x ++ a :: y → ∃ front b back x' y', bs = front ++ b :: back ∧
      f b = x' ++ a :: y' ∧ x = front.flatMap f ++ x'
  | [], x, h => by simp at h
  | b :: bs, x, h => by
      rw [List.flatMap_cons] at h
      rcases append_eq_append_cons h with ⟨y', hb, -⟩ | ⟨x', hbs, rfl⟩
      · exact ⟨[], b, bs, x, y', rfl, hb, rfl⟩
      · obtain ⟨front, b', back, x'', y', rfl, hb', rfl⟩ := flatMap_eq_append_cons hbs
        exact ⟨b :: front, b', back, x'', y', rfl, hb', by simp⟩

end Positions

/-! ## Counting -/

/-- Fewer are counted by a test that passes less and fails at something counted before. -/
theorem countP_lt {α : Type} {f g : α → Bool} {a : α} : ∀ {l : List α},
    (∀ x ∈ l, f x = true → g x = true) → a ∈ l → g a = true → f a = false →
      l.countP f < l.countP g
  | [], _, ha, _, _ => absurd ha List.not_mem_nil
  | x :: xs, hle, ha, hg, hf => by
      rw [List.forall_mem_cons] at hle
      have htail : xs.countP f ≤ xs.countP g := List.countP_mono_left hle.2
      rw [List.countP_cons, List.countP_cons]
      rcases List.mem_cons.mp ha with rfl | ha
      · simp only [hf, hg]
        simp only [Bool.false_eq_true, if_false, if_true]
        omega
      · have hlt := countP_lt hle.2 ha hg hf
        by_cases hfx : f x = true
        · simp only [hfx, hle.1 hfx, if_true]
          omega
        · simp only [hfx]
          simp only [Bool.false_eq_true, if_false]
          omega

end ClassTables
