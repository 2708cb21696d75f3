import ClassTables.Files.Memory
import Mathlib.Data.Char
import Mathlib.Data.List.Dedup
import Mathlib.Data.List.Induction
import Mathlib.Data.List.Lex
/-!
# Files in memory as a map

The store is a list of entries in the order of paths, and a write looks for its place from the
front.  The order of component lists is a strict total order (`Path.before_trichotomy`), so a write
either meets the entry of its path or stops where a new one belongs (`Sorted.write`).

Main statements, for any sequence of writes: a path holds the text of the last write with the same
components (`get?_store`), and there are as many entries as there are component lists written
(`size_store`).
-/

namespace ClassTables

/-! ## The order of paths -/

namespace Path

/-- The characters of a name. -/
def Component.chars : Component → List Char
  | .name s => s.toList
  | _ => []

/-- Components are ordered by kind, and within a kind by characters. -/
theorem Component.before_iff {c d : Component} :
    c.before d = true ↔ c.rank < d.rank ∨ c.rank = d.rank ∧ c.chars < d.chars := by
  cases c with
  | name s =>
      cases d with
      | name t =>
          rw [before, decide_eq_true_eq]
          have hchars : s < t ↔ s.toList < t.toList := Iff.rfl
          simp [hchars, rank, chars]
      | _ => simp [before, rank]
  | _ => cases d <;> simp [before, rank, chars]

/-- Kind and characters make the component. -/
theorem Component.eq_of_rank_chars {c d : Component} (hrank : c.rank = d.rank)
    (hchars : c.chars = d.chars) : c = d := by
  cases c <;> cases d <;> simp_all [rank, chars, String.toList_inj]

theorem Component.before_irrefl (c : Component) : c.before c = false := by
  rw [Bool.eq_false_iff, Ne, before_iff, not_or, not_and]
  exact ⟨lt_irrefl _, fun _ => lt_irrefl _⟩

theorem Component.before_trans {c d e : Component} (h : c.before d = true)
    (h' : d.before e = true) : c.before e = true := by
  rw [before_iff] at h h' ⊢
  rcases h with h | ⟨heq, h⟩
  · rcases h' with h' | ⟨heq', -⟩
    · exact Or.inl (lt_trans h h')
    · exact Or.inl (heq' ▸ h)
  · rw [heq]
    exact h'.imp_right fun h' => ⟨h'.1, lt_trans h h'.2⟩

theorem Component.before_trichotomy (c d : Component) :
    c.before d = true ∨ c = d ∨ d.before c = true := by
  rw [before_iff, before_iff]
  rcases lt_trichotomy c.rank d.rank with h | hrank | h
  · exact Or.inl (Or.inl h)
  · rcases lt_trichotomy c.chars d.chars with h | h | h
    · exact Or.inl (Or.inr ⟨hrank, h⟩)
    · exact Or.inr (Or.inl (eq_of_rank_chars hrank h))
    · exact Or.inr (Or.inr (Or.inr ⟨hrank.symm, h⟩))
  · exact Or.inr (Or.inr (Or.inl h))

theorem before_cons {c d : Component} {cs ds : List Component} :
    before (c :: cs) (d :: ds) = true ↔ c.before d = true ∨ c = d ∧ before cs ds = true := by
  rw [before, Bool.or_eq_true, Bool.and_eq_true, beq_iff_eq]

theorem before_irrefl (cs : List Component) : before cs cs = false := by
  induction cs with
  | nil => rfl
  | cons c cs ih => rw [before, c.before_irrefl, ih, Bool.and_false, Bool.or_false]

theorem before_trans : ∀ {cs ds es : List Component}, before cs ds = true → before ds es = true →
    before cs es = true
  | _, [], _, h, _ => by simp [before] at h
  | _, _ :: _, [], _, h' => by simp [before] at h'
  | [], _ :: _, _ :: _, _, _ => rfl
  | c :: cs, d :: ds, e :: es, h, h' => by
      rw [before_cons] at h h' ⊢
      rcases h with h | ⟨rfl, h⟩
      · rcases h' with h' | ⟨rfl, -⟩
        · exact Or.inl (Component.before_trans h h')
        · exact Or.inl h
      · exact h'.imp_right fun h' => ⟨h'.1, before_trans h h'.2⟩

theorem before_trichotomy : ∀ cs ds : List Component,
    before cs ds = true ∨ cs = ds ∨ before ds cs = true
  | [], [] => Or.inr (Or.inl rfl)
  | [], _ :: _ => Or.inl rfl
  | _ :: _, [] => Or.inr (Or.inr rfl)
  | c :: cs, d :: ds => by
      rw [before_cons, before_cons, List.cons.injEq]
      rcases Component.before_trichotomy c d with h | rfl | h
      · exact Or.inl (Or.inl h)
      · rcases before_trichotomy cs ds with h | h | h
        · exact Or.inl (Or.inr ⟨rfl, h⟩)
        · exact Or.inr (Or.inl ⟨rfl, h⟩)
        · exact Or.inr (Or.inr (Or.inr ⟨rfl, h⟩))
      · exact Or.inr (Or.inr (Or.inl h))

end Path

namespace MemoryFiles

open ClassTables.Path (components before)

variable {files : MemoryFiles} {es : List (String × String)} {path text q : String}

/-! ## One write -/

/-- The places of the entries. -/
def places (files : MemoryFiles) : List (List Path.Component) :=
  files.entries.map fun e => components e.1

/-- Every entry stands before those behind it. -/
def Sorted (files : MemoryFiles) : Prop := files.places.Pairwise fun cs ds => before cs ds = true

theorem mem_places_insert {cs : List Path.Component} :
    cs ∈ (insert path text es).map (fun e => components e.1) ↔
      cs = components path ∨ cs ∈ es.map fun e => components e.1 := by
  induction es with
  | nil => simp [insert]
  | cons e es ih =>
      rw [insert]
      split
      · next heq => simp [heq]
      · split
        · simp
        · rw [List.map_cons, List.mem_cons, ih, List.map_cons, List.mem_cons]
          exact or_left_comm

theorem mem_places_write {cs : List Path.Component} :
    cs ∈ (files.write path text).places ↔ cs = components path ∨ cs ∈ files.places :=
  mem_places_insert

/-- **A write keeps the entries in order.** -/
theorem Sorted.write (h : files.Sorted) (path text : String) : (files.write path text).Sorted := by
  rcases files with ⟨es⟩
  have hinsert : ∀ es : List (String × String),
      (es.map fun e => components e.1).Pairwise (fun cs ds => before cs ds = true) →
      ((insert path text es).map fun e => components e.1).Pairwise
        fun cs ds => before cs ds = true := by
    intro es
    induction es with
    | nil => exact fun _ => List.pairwise_singleton _ _
    | cons e es ih =>
        intro hes
        obtain ⟨hfirst, hrest⟩ := List.pairwise_cons.mp hes
        rw [insert]
        split
        · exact hes
        · next hne =>
            split
            · next hlt =>
                refine List.pairwise_cons.mpr ⟨?_, hes⟩
                intro cs hcs
                rcases List.mem_cons.mp hcs with rfl | hcs
                · exact hlt
                · exact Path.before_trans hlt (hfirst cs hcs)
            · next hnlt =>
                refine List.pairwise_cons.mpr ⟨?_, ih hrest⟩
                intro cs hcs
                rcases mem_places_insert.mp hcs with rfl | hcs
                · rcases Path.before_trichotomy (components e.1) (components path) with h | h | h
                  · exact h
                  · exact absurd h hne
                  · exact absurd h hnlt
                · exact hfirst cs hcs
  exact hinsert es h

theorem Sorted.nodup (h : files.Sorted) : files.places.Nodup := by
  refine List.Pairwise.imp (fun {cs ds} hlt => ?_) h
  rintro rfl
  rw [Path.before_irrefl] at hlt
  cases hlt

/-- **A write is seen at its own path, however that is spelt, and nowhere else.** -/
theorem get?_write : (files.write path text).get? q =
    if components path = components q then some text else files.get? q := by
  rcases files with ⟨es⟩
  rw [get?, get?, write]
  by_cases hq : components path = components q
  · rw [if_pos hq]
    induction es with
    | nil => simp [insert, hq]
    | cons e es ih =>
        rw [insert]
        split
        · next heq => simp [heq, hq]
        · next hne =>
            have hskip : (components e.1 == components q) = false :=
              beq_false_of_ne fun h => hne (h.trans hq.symm)
            split
            · simp [hq]
            · rw [List.find?_cons, hskip]
              exact ih
  · rw [if_neg hq]
    have hskip : (components path == components q) = false := beq_false_of_ne hq
    induction es with
    | nil => simp [insert, hskip]
    | cons e es ih =>
        rw [insert]
        split
        · next heq => simp [heq, hskip]
        · split
          · simp [hskip]
          · rw [List.find?_cons, List.find?_cons]
            cases components e.1 == components q with
            | true => rfl
            | false => exact ih

/-! ## Any number of writes -/

/-- The store after some writes, from an empty one. -/
def store (writes : List (String × String)) : MemoryFiles :=
  writes.foldl (fun files w => files.write w.1 w.2) {}

variable {ws : List (String × String)} {w : String × String}

theorem store_append_singleton : store (ws ++ [w]) = (store ws).write w.1 w.2 := by
  rw [store, List.foldl_append]
  rfl

theorem sorted_store (ws : List (String × String)) : (store ws).Sorted := by
  induction ws using List.reverseRecOn with
  | nil => exact List.Pairwise.nil
  | append_singleton ws w ih =>
      rw [store_append_singleton]
      exact ih.write w.1 w.2

/-- **A path holds the text of the last write with the same components.** -/
theorem get?_store (ws : List (String × String)) (q : String) : (store ws).get? q =
    (ws.reverse.find? fun w => components w.1 == components q).map (·.2) := by
  induction ws using List.reverseRecOn with
  | nil => rfl
  | append_singleton ws w ih =>
      rw [store_append_singleton, get?_write, List.reverse_append, List.reverse_singleton,
        List.singleton_append, List.find?_cons, ih]
      by_cases hw : components w.1 = components q
      · simp [hw]
      · rw [if_neg hw, beq_false_of_ne hw]

theorem mem_places_store {cs : List Path.Component} :
    cs ∈ (store ws).places ↔ cs ∈ ws.map fun w => components w.1 := by
  induction ws using List.reverseRecOn with
  | nil => rfl
  | append_singleton ws w ih =>
      rw [store_append_singleton, mem_places_write, ih, List.map_append, List.mem_append,
        List.map_singleton, List.mem_singleton]
      exact or_comm

/-- **There are as many entries as component lists written.** -/
theorem size_store (ws : List (String × String)) :
    (store ws).size = (ws.map fun w => components w.1).dedup.length := by
  have hmem : ∀ cs, cs ∈ (store ws).places ↔ cs ∈ (ws.map fun w => components w.1).dedup :=
    fun cs => mem_places_store.trans List.mem_dedup.symm
  have hperm :=
    (List.perm_ext_iff_of_nodup (sorted_store ws).nodup (List.nodup_dedup _)).mpr hmem
  have hlen := hperm.length_eq
  rwa [places, List.length_map] at hlen

end MemoryFiles

end ClassTables
