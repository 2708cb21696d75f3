import ClassTables.Proofs.StoredRegistry
/-!
# Slots are stable down the class tree

Compiled code that has looked up the slot of a method once uses the number with every descendant of
the class.  So a table must go on where that of the parent ends, and must not move anything in it.

On the registry this is one sentence: the names of a table begin with those of the parent's table,
and the parent stands in front (`Registry.Stacked`).  Loading a class keeps it
(`Registry.Stacked.register`), and what any calls lead to is what some list of classes that fit
leads to (`Registry.exists_bootstrap_after`).  The store keeps the registry, so what the sentence
says of names it says of the index of a class and its slots (`ClassStore.WellPlaced`).

Main statement: `slots_stable_after`.
-/

namespace ClassTables

open Relation

variable {F : Type}

/-! ## In the registry -/

namespace Registry

variable {r r' : Registry F} {spec : ClassSpec F} {specs : List (ClassSpec F)}

/-- Every class stands behind its parent, and the names of its table begin with the parent's. -/
def Stacked (r : Registry F) : Prop :=
  ∀ (i : Nat) c, r.classes[i]? = some c → ∀ n, c.parent = some n →
    ∃ j a, j < i ∧ r.classes[j]? = some a ∧ a.name = n ∧ tableNames a.table <+: tableNames c.table

theorem stacked_empty : ({} : Registry F).Stacked := by
  intro i c hc
  cases hc

/-- The parent that a specification names is the one that is found under this name. -/
theorem parentOf_eq_ok {parent : Option (LoadedClass F)} {n : String}
    (h : r.parentOf spec = .ok parent) (hn : spec.parent = some n) :
    ∃ a, parent = some a ∧ r.class? n = some a := by
  unfold parentOf at h
  rw [hn] at h
  dsimp only at h
  cases ha : r.class? n with
  | none =>
      rw [ha] at h
      cases h
  | some a =>
      rw [ha] at h
      cases h
      exact ⟨a, rfl, rfl⟩

/-- **A class is put behind its parent, with the parent's slots in front.** -/
theorem Stacked.register (h : r.Stacked) (hr : r.register spec = .ok r') : r'.Stacked := by
  obtain ⟨-, parent, table, hparent, htable, rfl⟩ := register_eq_ok_iff.mp hr
  intro i c hc n hn
  have hold : ∀ {j : Nat} {a : LoadedClass F}, r.classes[j]? = some a →
      (r.classes ++ [r.loadedOf spec parent table])[j]? = some a := by
    intro j a ha
    rw [List.getElem?_append_left (List.getElem?_eq_some_iff.mp ha).1, ha]
  rcases Nat.lt_trichotomy i r.classes.length with hlt | rfl | hgt
  · rw [List.getElem?_append_left hlt] at hc
    obtain ⟨j, a, hj, ha, hname, hprefix⟩ := h i c hc n hn
    exact ⟨j, a, hj, hold ha, hname, hprefix⟩
  · -- the class that has just been loaded
    rw [List.getElem?_concat_length, Option.some.injEq] at hc
    subst hc
    obtain ⟨a, rfl, ha⟩ := parentOf_eq_ok hparent hn
    obtain ⟨j, hj⟩ := List.mem_iff_getElem?.mp (List.mem_of_find?_eq_some ha)
    have hname : a.name = n := by simpa using List.find?_some ha
    refine ⟨j, a, (List.getElem?_eq_some_iff.mp hj).1, hold hj, hname, ?_⟩
    show tableNames a.table <+: tableNames table
    rw [tableNames_of_table htable]
    exact List.prefix_append _ _
  · rw [List.getElem?_eq_none (by rw [List.length_append]; exact hgt)] at hc
    cases hc

theorem Stacked.prefix_of_parent? (h : r.Stacked) (hs : r.Sound) {c a : LoadedClass F}
    (hc : c ∈ r.classes) (ha : r.parent? c = some a) :
    a ∈ r.classes ∧ tableNames a.table <+: tableNames c.table := by
  obtain ⟨n, hn, hfound⟩ := Option.bind_eq_some_iff.mp ha
  obtain ⟨i, hi⟩ := List.mem_iff_getElem?.mp hc
  obtain ⟨j, a', -, hj, hname, hprefix⟩ := h i c hi n hn
  have ha' : r.class? n = some a' :=
    (find?_key_eq_some_iff hs.names).mpr ⟨List.mem_of_getElem? hj, hname⟩
  cases hfound.symm.trans ha'
  exact ⟨List.mem_of_getElem? hj, hprefix⟩

/-- Whatever calls there were, the classes that stayed could have been loaded by one call. -/
theorem exists_bootstrap_after (calls : List (List (ClassSpec F))) :
    ∃ specs, ({} : Registry F).bootstrap specs = .ok (Registry.after calls) := by
  induction calls using List.reverseRecOn with
  | nil => exact ⟨[], rfl⟩
  | append_singleton calls specs ih =>
      obtain ⟨before, hbefore⟩ := ih
      unfold Registry.after at hbefore ⊢
      rw [List.foldl_append, List.foldl_cons, List.foldl_nil]
      cases hcall : Registry.bootstrap _ specs with
      | error e => exact ⟨before, hbefore⟩
      | ok r' => exact ⟨before ++ specs, bootstrap_append hbefore hcall⟩

end Registry

/-! ## In the store -/

namespace ClassStore

/-- The second class is the parent of the first one, or an ancestor of its parent. -/
def Ancestor (s : ClassStore F) : StoredClass F → StoredClass F → Prop :=
  TransGen fun c a => s.parentOf? c = some a

/-- Names lead to classes, and methods to slots, one to one, and the same way in all descendants. -/
structure WellPlaced (s : ClassStore F) : Prop where
  distinct : (s.classes.map (·.name)).Nodup
  /-- A class is found under its own name and under no other. -/
  found : ∀ n c, s.class? n = some c ↔ c ∈ s.classes ∧ c.name = n
  /-- A class was put into the vector before its children. -/
  parents : ∀ (i : Nat) c, s.classes[i]? = some c → ∀ j, c.parent = some j → j < i
  slot_lt : ∀ c ∈ s.classes, ∀ m i, c.slotOf? m = some i → i < c.vtable.length
  /-- Every place in a table is the slot of one method. -/
  one_method : ∀ c ∈ s.classes, ∀ i < c.vtable.length, ∃! m, c.slotOf? m = some i
  /-- A method has the same slot in all classes that have it from the same ancestor. -/
  inherited : ∀ c ∈ s.classes, ∀ a, s.Ancestor c a →
    ∀ m i, a.slotOf? m = some i → c.slotOf? m = some i

end ClassStore

namespace Registry

variable {r : Registry F} {c : LoadedClass F}

theorem stored_slotOf?_eq_some_iff {names : List String} {m : String} {i : Nat}
    (h : (tableNames c.table).Nodup) :
    (c.stored names).slotOf? m = some i ↔ (tableNames c.table)[i]? = some m :=
  NameIndex.get?_ofNames_eq_some_iff h

theorem length_stored_vtable (names : List String) :
    (c.stored names).vtable.length = (tableNames c.table).length := by
  show (c.table.map (·.slot)).length = _
  rw [List.length_map, List.length_map]

/-- The names of an ancestor's table stand in front in the table of a class. -/
theorem Stacked.prefix_of_ancestor (h : r.Stacked) (hs : r.Sound) (hc : c ∈ r.classes)
    {s : StoredClass F} (hanc : r.stored.Ancestor (c.stored r.names) s) :
    ∃ a ∈ r.classes, s = a.stored r.names ∧ tableNames a.table <+: tableNames c.table := by
  have hparent : ∀ {c : LoadedClass F} {s : StoredClass F}, c ∈ r.classes →
      r.stored.parentOf? (c.stored r.names) = some s →
        ∃ a ∈ r.classes, s = a.stored r.names ∧ tableNames a.table <+: tableNames c.table := by
    intro c s hc hstep
    rw [hs.stored_parentOf? hc, Option.map_eq_some_iff] at hstep
    obtain ⟨a, ha, rfl⟩ := hstep
    obtain ⟨hmem, hprefix⟩ := h.prefix_of_parent? hs hc ha
    exact ⟨a, hmem, rfl, hprefix⟩
  -- one generation after the other, from the class upwards
  induction hanc with
  | single hstep => exact hparent hc hstep
  | tail _ hstep ih =>
      obtain ⟨a, ha, rfl, hprefix⟩ := ih
      obtain ⟨b, hb, rfl, hprefix'⟩ := hparent ha hstep
      exact ⟨b, hb, rfl, hprefix'.trans hprefix⟩

theorem mem_stored_classes {s : StoredClass F} :
    s ∈ r.stored.classes ↔ ∃ c ∈ r.classes, c.stored r.names = s := List.mem_map

theorem Sound.stored_class?_eq_some_iff (hs : r.Sound) {n : String} {s : StoredClass F} :
    r.stored.class? n = some s ↔ s ∈ r.stored.classes ∧ s.name = n := by
  rw [stored_class? hs.names, Option.map_eq_some_iff, mem_stored_classes]
  simp only [Registry.class?, find?_key_eq_some_iff hs.names]
  constructor
  · rintro ⟨c, ⟨hc, rfl⟩, rfl⟩
    exact ⟨⟨c, hc, rfl⟩, rfl⟩
  · rintro ⟨⟨c, hc, rfl⟩, rfl⟩
    exact ⟨c, ⟨hc, rfl⟩, rfl⟩

theorem Stacked.stored_parent_lt (h : r.Stacked) (hs : r.Sound) {i j : Nat} {s : StoredClass F}
    (hi : r.stored.classes[i]? = some s) (hj : s.parent = some j) : j < i := by
  rw [stored_classes, List.getElem?_map, Option.map_eq_some_iff] at hi
  obtain ⟨c, hc, rfl⟩ := hi
  obtain ⟨n, hn, hplace⟩ := Option.bind_eq_some_iff.mp hj
  obtain ⟨k, a, hk, ha, rfl, -⟩ := h i c hc n hn
  -- the place that the name leads to is the place where the parent stands
  have hname : r.names[k]? = some a.name := by rw [getElem?_names, ha, Option.map_some]
  rwa [(NameIndex.place_eq_iff hs.names hplace hname).mpr rfl]

/-- **The kept form of a registry is well placed.** -/
theorem Stacked.wellPlaced (h : r.Stacked) (hs : r.Sound) : r.stored.WellPlaced where
  distinct := by
    rw [stored_classes, List.map_map]
    exact hs.names
  found := fun n s => hs.stored_class?_eq_some_iff
  parents := fun i s hi j hj => h.stored_parent_lt hs hi hj
  slot_lt := by
    intro s hmem m i hslot
    obtain ⟨c, hc, rfl⟩ := mem_stored_classes.mp hmem
    rw [stored_slotOf?_eq_some_iff (hs.tables c hc)] at hslot
    rw [length_stored_vtable]
    exact (List.getElem?_eq_some_iff.mp hslot).1
  one_method := by
    intro s hmem i hi
    obtain ⟨c, hc, rfl⟩ := mem_stored_classes.mp hmem
    rw [length_stored_vtable] at hi
    simp only [stored_slotOf?_eq_some_iff (hs.tables c hc), List.getElem?_eq_getElem hi,
      Option.some.injEq]
    exact ⟨_, rfl, fun m hm => hm.symm⟩
  inherited := by
    intro s hmem t hanc m i hslot
    obtain ⟨c, hc, rfl⟩ := mem_stored_classes.mp hmem
    obtain ⟨a, ha, rfl, rest, hnames⟩ := h.prefix_of_ancestor hs hc hanc
    rw [stored_slotOf?_eq_some_iff (hs.tables a ha)] at hslot
    have hlt := (List.getElem?_eq_some_iff.mp hslot).1
    rw [stored_slotOf?_eq_some_iff (hs.tables c hc), ← hnames, List.getElem?_append_left hlt, hslot]

theorem sound_of_bootstrap {specs : List (ClassSpec F)}
    (h : ({} : Registry F).bootstrap specs = .ok r) : r.Sound :=
  bootstrap_induction (fun _ _ _ hr => hr.register) sound_empty h

theorem wellPlaced_of_bootstrap {specs : List (ClassSpec F)}
    (h : ({} : Registry F).bootstrap specs = .ok r) : r.stored.WellPlaced := by
  have hstacked : r.Stacked := bootstrap_induction (fun _ _ _ hr => hr.register) stacked_empty h
  exact hstacked.wellPlaced (sound_of_bootstrap h)

end Registry

/-! ## After any calls -/

/-- **Slots are stable down the class tree,** after any calls to load classes, of which any may have
failed, and after any calls of a runtime.  Names are distinct and lead to their classes, parents
stand in front, the methods of a class and the places of its table correspond one to one, and a slot
number of an ancestor is that of the same method in every descendant. -/
theorem slots_stable_after :
    (∀ calls : List (List (ClassSpec F)), (ClassStore.after calls).WellPlaced) ∧
      ∀ calls : List (Runtime.Call F), (Runtime.after calls).registry.stored.WellPlaced := by
  constructor
  · intro calls
    obtain ⟨specs, h⟩ := Registry.exists_bootstrap_after calls
    rw [(after_stored calls).1]
    exact Registry.wellPlaced_of_bootstrap h
  · intro calls
    obtain ⟨past, h⟩ := Runtime.orderly_after calls
    exact Registry.wellPlaced_of_bootstrap h.ledger.registry

end ClassTables
