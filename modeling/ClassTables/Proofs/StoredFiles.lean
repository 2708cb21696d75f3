import ClassTables.Proofs.Lists
import ClassTables.Proofs.MemoryFiles
import Mathlib.Data.Finset.Card
/-!
# What any number of writes leaves behind

A store in memory is asked for the text of a path, for the number of its files, or for all of them.
The answers depend on the writes alone: the *last* write under some components gives the text, and
the *first* one gives the spelling under which the file is listed.

The list is in the order of paths, which is the lexicographic order of component lists
(`Path.before_iff_lex`).  Main statement: `reflects_store`.
-/

namespace ClassTables

namespace Path

/-- The order of components: by kind, and within a kind by characters. -/
def Component.Precedes (c d : Component) : Prop :=
  c.rank < d.rank ∨ c.rank = d.rank ∧ c.chars < d.chars

/-- **Paths are ordered component by component,** a part before the whole. -/
theorem before_iff_lex : ∀ {cs ds : List Component},
    before cs ds = true ↔ List.Lex Component.Precedes cs ds
  | [], [] => ⟨fun h => (nomatch h), fun h => (nomatch h)⟩
  | [], _ :: _ => ⟨fun _ => .nil, fun _ => rfl⟩
  | _ :: _, [] => ⟨fun h => (nomatch h), fun h => (nomatch h)⟩
  | c :: cs, d :: ds => by
      have hrest : before cs ds = true ↔ List.Lex Component.Precedes cs ds := before_iff_lex
      rw [before_cons, Component.before_iff, hrest]
      constructor
      · rintro (h | ⟨rfl, h⟩)
        · exact .rel h
        · exact .cons h
      · rintro (_ | h | h)
        · exact Or.inl h
        · exact Or.inr ⟨rfl, h⟩

end Path

namespace MemoryFiles

open ClassTables.Path (components before)

variable {files : MemoryFiles} {ws : List (String × String)} {w : String × String}
  {path text p q : String}

/-! ## Spellings -/

/-- The path stands among the writes, and none in front of it has the same components. -/
def FirstSpelling (ws : List (String × String)) (p : String) : Prop :=
  ∃ front text back, ws = front ++ (p, text) :: back ∧
    ∀ w ∈ front, components w.1 ≠ components p

theorem firstSpelling_iff_find? : FirstSpelling ws p ↔
    (ws.find? fun w => components w.1 == components p).map (·.1) = some p := by
  simp only [FirstSpelling, Option.map_eq_some_iff, List.find?_eq_some_iff_append, beq_iff_eq,
    Bool.not_eq_true', beq_eq_false_iff_ne]
  constructor
  · rintro ⟨front, text, back, rfl, hfront⟩
    exact ⟨(p, text), ⟨rfl, front, back, rfl, hfront⟩, rfl⟩
  · rintro ⟨⟨p, text⟩, ⟨-, front, back, rfl, hfront⟩, rfl⟩
    exact ⟨front, text, back, rfl, hfront⟩

/-- One more write adds its own spelling, unless its components were written before. -/
theorem firstSpelling_append_singleton : FirstSpelling (ws ++ [w]) p ↔
    FirstSpelling ws p ∨ p = w.1 ∧ ∀ v ∈ ws, components v.1 ≠ components w.1 := by
  rw [firstSpelling_iff_find?, firstSpelling_iff_find?, List.find?_append]
  cases hfind : ws.find? fun v => components v.1 == components p with
  | some v =>
      have hv : components v.1 = components p := by simpa using List.find?_some hfind
      have hmem := List.mem_of_find?_eq_some hfind
      rw [Option.some_or]
      refine ⟨Or.inl, fun h => h.resolve_right ?_⟩
      rintro ⟨rfl, hnone⟩
      exact hnone v hmem hv
  | none =>
      have hnone : ∀ v ∈ ws, components v.1 ≠ components p := by simpa using hfind
      rw [Option.none_or, Option.map_none, or_iff_right (by simp)]
      constructor
      · intro h
        obtain ⟨v, hv, rfl⟩ := Option.map_eq_some_iff.mp h
        obtain rfl := List.mem_singleton.mp (List.mem_of_find?_eq_some hv)
        exact ⟨rfl, hnone⟩
      · rintro ⟨rfl, -⟩
        simp

/-- A write changes the text of an entry under its components, or puts a new entry somewhere. -/
theorem exists_insert_eq (path text : String) : ∀ es : List (String × String), ∃ front back,
    (∃ e, components e.1 = components path ∧ es = front ++ e :: back ∧
      insert path text es = front ++ (e.1, text) :: back) ∨
    (es = front ++ back ∧ insert path text es = front ++ (path, text) :: back)
  | [] => ⟨[], [], Or.inr ⟨rfl, rfl⟩⟩
  | e :: es => by
      rw [insert]
      split
      · next heq => exact ⟨[], es, Or.inl ⟨e, heq, rfl, rfl⟩⟩
      · split
        · exact ⟨[], e :: es, Or.inr ⟨rfl, rfl⟩⟩
        · obtain ⟨front, back, ⟨e', heq, rfl, hinsert⟩ | ⟨rfl, hinsert⟩⟩ :=
            exists_insert_eq path text es
          · exact ⟨e :: front, back, Or.inl ⟨e', heq, rfl, congrArg (e :: ·) hinsert⟩⟩
          · exact ⟨e :: front, back, Or.inr ⟨rfl, congrArg (e :: ·) hinsert⟩⟩

/-- A write keeps the spellings that are there, and adds its own under new components only. -/
theorem mem_spellings_write (h : files.Sorted) :
    p ∈ (files.write path text).entries.map (·.1) ↔
      p ∈ files.entries.map (·.1) ∨ p = path ∧ components path ∉ files.places := by
  have hnodup := (h.write path text).nodup
  obtain ⟨front, back, hcases⟩ := exists_insert_eq path text files.entries
  rw [places, write] at hnodup
  rw [places, write]
  rcases hcases with ⟨e, heq, hes, hinsert⟩ | ⟨hes, hinsert⟩
  · -- the components are there already
    have hmem : components path ∈ files.entries.map fun e => components e.1 := by
      simp [hes, heq]
    rw [or_iff_left fun hnew => hnew.2 hmem, hinsert, hes]
    simp
  · rw [hinsert, List.map_append, List.map_cons, List.nodup_middle, List.nodup_cons,
      ← List.map_append, ← hes] at hnodup
    have hnew := hnodup.1
    rw [hinsert, and_iff_left hnew, hes]
    simp only [List.map_append, List.map_cons, List.mem_append, List.mem_cons]
    exact or_left_comm.trans (or_comm)

theorem mem_spellings_store : p ∈ (store ws).entries.map (·.1) ↔ FirstSpelling ws p := by
  induction ws using List.reverseRecOn with
  | nil =>
      refine ⟨fun h => (nomatch h), ?_⟩
      rintro ⟨front, text, back, h, -⟩
      simp at h
  | append_singleton ws w ih =>
      rw [store_append_singleton, mem_spellings_write (sorted_store ws), ih,
        firstSpelling_append_singleton, mem_places_store]
      simp

/-! ## All answers -/

/-- The store answers as if it had been empty and had seen just these writes. -/
structure Reflects (files : MemoryFiles) (ws : List (String × String)) : Prop where
  /-- A path gives the text of the last write under its components. -/
  found : ∀ p text, files.get? p = some text ↔
    ∃ front q back, ws = front ++ (q, text) :: back ∧ components q = components p ∧
      ∀ w ∈ back, components w.1 ≠ components p
  /-- A path gives nothing if nothing was written under its components. -/
  missing : ∀ p, files.get? p = none ↔ ∀ w ∈ ws, components w.1 ≠ components p
  size : files.size = (ws.map fun w => components w.1).toFinset.card
  /-- Every component list that was written is listed once. -/
  once : ∀ cs, files.places.count cs = if cs ∈ ws.map (fun w => components w.1) then 1 else 0
  /-- It is listed with the spelling of the first write and the text of the last. -/
  listed : ∀ p text, (p, text) ∈ files.entries ↔ FirstSpelling ws p ∧ files.get? p = some text
  ordered : files.places.Pairwise (List.Lex Path.Component.Precedes)
  /-- Another write is not seen under other components. -/
  apart : ∀ p text q, components p ≠ components q → (files.write p text).get? q = files.get? q

/-- An entry is found by its own spelling. -/
theorem Sorted.mem_entries_iff (h : files.Sorted) : (p, text) ∈ files.entries ↔
    p ∈ files.entries.map (·.1) ∧ files.get? p = some text := by
  have hfind : ∀ e, files.entries.find? (fun e => components e.1 == components p) = some e ↔
      e ∈ files.entries ∧ components e.1 = components p := by
    have hnd : (files.entries.map fun e => components e.1).Nodup := h.nodup
    exact fun e => find?_key_eq_some_iff hnd
  rw [get?, Option.map_eq_some_iff]
  simp only [hfind]
  constructor
  · intro hmem
    exact ⟨List.mem_map_of_mem hmem, (p, text), ⟨hmem, rfl⟩, rfl⟩
  · rintro ⟨hspelling, e, ⟨he, hcomponents⟩, rfl⟩
    obtain ⟨e', he', rfl⟩ := List.mem_map.mp hspelling
    rw [List.inj_on_of_nodup_map h.nodup he' he hcomponents.symm]
    exact he

/-- **A store in memory is a map from component lists to texts.** -/
theorem reflects_store (ws : List (String × String)) : (store ws).Reflects ws where
  found := by
    intro p text
    simp only [get?_store, Option.map_eq_some_iff, List.find?_eq_some_iff_append, beq_iff_eq,
      Bool.not_eq_true', beq_eq_false_iff_ne]
    constructor
    · rintro ⟨⟨q, text⟩, ⟨hq, back, front, hrev, hback⟩, rfl⟩
      refine ⟨front.reverse, q, back.reverse, ?_, hq, fun w hw => hback w (List.mem_reverse.mp hw)⟩
      rw [← List.reverse_reverse ws, hrev]
      simp
    · rintro ⟨front, q, back, rfl, hq, hback⟩
      exact ⟨(q, text), ⟨hq, back.reverse, front.reverse, by simp,
        fun w hw => hback w (List.mem_reverse.mp hw)⟩, rfl⟩
  missing := by
    intro p
    simp [get?_store]
  size := by rw [size_store, List.card_toFinset]
  once := by
    intro cs
    rw [(sorted_store ws).nodup.count]
    simp only [mem_places_store]
  listed := by
    intro p text
    rw [(sorted_store ws).mem_entries_iff, mem_spellings_store]
  ordered := (sorted_store ws).imp Path.before_iff_lex.mp
  apart := by
    intro p text q hne
    rw [get?_write, if_neg hne]

end MemoryFiles

end ClassTables
