import ClassTables.Proofs.Preorder
import ClassTables.Proofs.Lists
/-!
# Method lists of a lineage

`methodList` installs the methods that a class declares one by one into the list of its parent.
When no class on the lineage declares a method twice, the result has a closed form: the parent's
list with redeclared methods exchanged in their slots, then the novel ones (`methodList_cons`).
Its entry under a name is the nearest declaration of that name (`find?_methodList`).
-/

namespace ClassTables

/-- No class of a lineage declares a method twice. -/
def MethodsDistinct (l : List ClassDef) : Prop := ∀ d ∈ l, (d.ownMethods.map (·.name)).Nodup

theorem MethodsDistinct.tail {d : ClassDef} {ds : List ClassDef} (h : MethodsDistinct (d :: ds)) :
    MethodsDistinct ds := fun e he => h e (List.mem_cons_of_mem _ he)

/-- The declaration of a method that counts in a class: its own, else that of the nearest ancestor
that has one. -/
def Class.declaration? (c : Class) (n : String) : Option Method :=
  (c :: c.ancestors).findSome? fun a => a.freshMethods.find? (·.name == n)

/-! ## What a class declares -/

section Fresh

variable (d : ClassDef) (inherited : List Method)

theorem ClassDef.fresh_names : (d.fresh inherited).map (·.name) = d.ownMethods.map (·.name) := by
  rw [ClassDef.fresh, List.map_map]
  rfl

theorem ClassDef.fresh_nodup (h : (d.ownMethods.map (·.name)).Nodup) :
    ((d.fresh inherited).map (·.name)).Nodup := by
  rwa [d.fresh_names]

variable {d inherited}

theorem ClassDef.declarer_of_mem_fresh {m : Method} (h : m ∈ d.fresh inherited) :
    m.declarer = d.toClassHead := by
  obtain ⟨decl, _, rfl⟩ := List.mem_map.mp h
  rfl

/-- A declared method is novel when nothing of its name is inherited. -/
theorem ClassDef.isNovel_of_mem_fresh {m : Method} (h : m ∈ d.fresh inherited) :
    m.isNovel = true ↔ m.name ∉ inherited.map (·.name) := by
  obtain ⟨decl, _, rfl⟩ := List.mem_map.mp h
  simp [ClassDef.declare]

end Fresh

/-! ## Installing -/

/-- What stands in the slot of an inherited method after the given ones are installed. -/
def redeclared (fresh : List Method) (old : Method) : Method :=
  (fresh.find? (·.name == old.name)).getD old

theorem redeclared_name (fresh : List Method) (old : Method) :
    (redeclared fresh old).name = old.name := by
  rw [redeclared]
  cases h : fresh.find? (·.name == old.name) with
  | none => rfl
  | some m => simpa using List.find?_some h

theorem redeclared_cons (m : Method) (ms : List Method) (old : Method) :
    redeclared (m :: ms) old = if old.name = m.name then m else redeclared ms old := by
  rw [redeclared, List.find?_cons]
  by_cases h : old.name = m.name
  · simp [h]
  · have hne : (m.name == old.name) = false := beq_false_of_ne (Ne.symm h)
    rw [hne, if_neg h, redeclared]

/-- Nothing is exchanged for a method that is not declared again. -/
theorem redeclared_of_not_mem {fresh : List Method} {old : Method}
    (h : old.name ∉ fresh.map (·.name)) : redeclared fresh old = old := by
  rw [redeclared, find?_key_eq_none_iff.mpr h]
  rfl

theorem any_name_iff {slots : List Method} {n : String} :
    slots.any (·.name == n) = true ↔ n ∈ slots.map (·.name) := by
  simp

theorem install_names (slots : List Method) (m : Method) :
    (install slots m).map (·.name) =
      if m.name ∈ slots.map (·.name) then slots.map (·.name) else slots.map (·.name) ++ [m.name] := by
  rw [install]
  simp only [any_name_iff]
  split
  · rw [List.map_map]
    refine List.map_congr_left fun old _ => ?_
    rw [Function.comp_apply]
    split
    · next h => exact h.symm
    · rfl
  · rw [List.map_append]
    rfl

/-- **Installing methods of distinct names** exchanges the slots of those that are there and
appends the others, in order. -/
theorem foldl_install : ∀ {fresh slots : List Method}, (fresh.map (·.name)).Nodup →
    fresh.foldl install slots =
      slots.map (redeclared fresh) ++ fresh.filter (fun m => !slots.any (·.name == m.name))
  | [], slots, _ => by
      rw [List.filter_nil, List.append_nil]
      exact (List.map_id slots).symm
  | m :: ms, slots, hnd => by
      rw [List.map_cons, List.nodup_cons] at hnd
      obtain ⟨hm, hnd⟩ := hnd
      rw [List.foldl_cons, foldl_install hnd, install]
      by_cases hin : slots.any (·.name == m.name) = true
      · -- the slot is exchanged; no later method has this name, so `m` stays there
        rw [if_pos hin, List.filter_cons_of_neg (by simpa using hin)]
        congr 1
        · rw [List.map_map]
          refine List.map_congr_left fun old _ => ?_
          rw [Function.comp_apply, redeclared_cons]
          split
          · exact redeclared_of_not_mem hm
          · rfl
        · refine List.filter_congr fun x _ => ?_
          have hnames := install_names slots m
          rw [if_pos (any_name_iff.mp hin), install, if_pos hin] at hnames
          rw [Bool.not_inj_iff, Bool.eq_iff_iff, any_name_iff, any_name_iff, hnames]
      · -- a new slot, which later methods leave alone
        rw [if_neg hin, List.map_append, List.map_singleton, redeclared_of_not_mem hm,
          List.filter_cons_of_pos (by simpa using hin), List.append_assoc, List.singleton_append]
        congr 1
        · refine List.map_congr_left fun old hold => ?_
          rw [redeclared_cons, if_neg]
          intro hname
          exact hin (any_name_iff.mpr (hname ▸ List.mem_map_of_mem hold))
        · congr 1
          refine List.filter_congr fun x hx => ?_
          have hne : x.name ≠ m.name := fun h => hm (h ▸ List.mem_map_of_mem hx)
          simp [List.any_append, hne.symm]

/-! ## The method list of a class and that of its parent -/

section Cons

variable {d : ClassDef} {ds : List ClassDef}

/-- **The closed form of a method list.** -/
theorem methodList_cons (hd : (d.ownMethods.map (·.name)).Nodup) :
    methodList (d :: ds) =
      (methodList ds).map (redeclared (d.fresh (methodList ds))) ++
        (d.fresh (methodList ds)).filter (·.isNovel) := by
  rw [methodList, foldl_install (d.fresh_nodup _ hd)]
  congr 1
  refine List.filter_congr fun m hm => ?_
  rw [Bool.eq_iff_iff, ClassDef.isNovel_of_mem_fresh hm, Bool.not_eq_true', Bool.eq_false_iff,
    Ne, any_name_iff]

/-- The names of the parent's list come first, then those of the novel methods. -/
theorem methodList_names_cons (hd : (d.ownMethods.map (·.name)).Nodup) :
    (methodList (d :: ds)).map (·.name) =
      (methodList ds).map (·.name) ++
        ((d.fresh (methodList ds)).filter (·.isNovel)).map (·.name) := by
  rw [methodList_cons hd, List.map_append, List.map_map]
  congr 1
  exact List.map_congr_left fun old _ => redeclared_name _ old

/-- An entry is declared here, or inherited and not declared here. -/
theorem mem_methodList_cons (hd : (d.ownMethods.map (·.name)).Nodup) {m : Method} :
    m ∈ methodList (d :: ds) ↔ m ∈ d.fresh (methodList ds) ∨
      m ∈ methodList ds ∧ m.name ∉ (d.fresh (methodList ds)).map (·.name) := by
  have hfresh := d.fresh_nodup (methodList ds) hd
  rw [methodList_cons hd, List.mem_append, List.mem_map, List.mem_filter]
  constructor
  · rintro (⟨old, hold, rfl⟩ | ⟨hm, _⟩)
    · by_cases hname : old.name ∈ (d.fresh (methodList ds)).map (·.name)
      · obtain ⟨x, hx⟩ := exists_find?_key_iff.mpr hname
        rw [redeclared, hx]
        exact Or.inl (List.mem_of_find?_eq_some hx)
      · rw [redeclared_of_not_mem hname]
        exact Or.inr ⟨hold, hname⟩
    · exact Or.inl hm
  · rintro (hm | ⟨hm, hname⟩)
    · by_cases hnovel : m.isNovel = true
      · exact Or.inr ⟨hm, hnovel⟩
      · rw [ClassDef.isNovel_of_mem_fresh hm, not_not] at hnovel
        obtain ⟨old, hold, heq⟩ := List.mem_map.mp hnovel
        refine Or.inl ⟨old, hold, ?_⟩
        rw [redeclared, heq, (find?_key_eq_some_iff hfresh).mpr ⟨hm, rfl⟩]
        rfl
    · exact Or.inl ⟨m, hm, redeclared_of_not_mem hname⟩

end Cons

theorem methodList_names_nodup : ∀ {l : List ClassDef}, MethodsDistinct l →
    ((methodList l).map (·.name)).Nodup
  | [], _ => List.nodup_nil
  | d :: ds, h => by
      have hd := h d List.mem_cons_self
      rw [methodList_names_cons hd, nodup_append_iff_freshNames]
      refine ⟨methodList_names_nodup h.tail, ?_, ?_⟩
      · intro m hm
        obtain ⟨hm, hnovel⟩ := List.mem_filter.mp hm
        exact (ClassDef.isNovel_of_mem_fresh hm).mp hnovel
      · exact (d.fresh_nodup _ hd).sublist (List.filter_sublist.map _)

/-- Every entry is declared by a class of the lineage. -/
theorem declarer_of_mem_methodList {m : Method} : ∀ {l : List ClassDef}, MethodsDistinct l →
    m ∈ methodList l → ∃ d ∈ l, m.declarer = d.toClassHead
  | [], _, hm => nomatch hm
  | d :: ds, h, hm => by
      rcases (mem_methodList_cons (h d List.mem_cons_self)).mp hm with hm | ⟨hm, _⟩
      · exact ⟨d, List.mem_cons_self, ClassDef.declarer_of_mem_fresh hm⟩
      · obtain ⟨e, he, heq⟩ := declarer_of_mem_methodList h.tail hm
        exact ⟨e, List.mem_cons_of_mem _ he, heq⟩

/-- **The entry under a name is the nearest declaration.** -/
theorem find?_methodList {n : String} : ∀ {l : List ClassDef}, MethodsDistinct l →
    (methodList l).find? (·.name == n) =
      (Class.ofLineage l).findSome? fun a => a.freshMethods.find? (·.name == n)
  | [], _ => rfl
  | d :: ds, h => by
      have hd := h d List.mem_cons_self
      have hnd := methodList_names_nodup h
      rw [Class.ofLineage, List.findSome?_cons, ← find?_methodList h.tail]
      rw [show (⟨d, ds⟩ : Class).freshMethods = d.fresh (methodList ds) from rfl]
      cases hfind : (d.fresh (methodList ds)).find? (·.name == n) with
      | some m =>
          obtain ⟨hm, hname⟩ := (find?_key_eq_some_iff (d.fresh_nodup _ hd)).mp hfind
          exact (find?_key_eq_some_iff hnd).mpr ⟨(mem_methodList_cons hd).mpr (Or.inl hm), hname⟩
      | none =>
          rw [find?_key_eq_none_iff] at hfind
          refine Option.ext fun m => ?_
          show _ ↔ (methodList ds).find? (·.name == n) = some m
          rw [find?_key_eq_some_iff hnd, find?_key_eq_some_iff (methodList_names_nodup h.tail),
            mem_methodList_cons hd]
          constructor
          · rintro ⟨hm | ⟨hm, _⟩, rfl⟩
            · exact absurd (List.mem_map_of_mem hm) hfind
            · exact ⟨hm, rfl⟩
          · rintro ⟨hm, rfl⟩
            exact ⟨Or.inr ⟨hm, hfind⟩, rfl⟩

theorem Class.method?_eq_declaration? {c : Class} (h : MethodsDistinct c.lineage) (n : String) :
    c.method? n = c.declaration? n :=
  find?_methodList h

end ClassTables
