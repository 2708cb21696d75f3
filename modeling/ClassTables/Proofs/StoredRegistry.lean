import ClassTables.Proofs.LoadedParcels
import ClassTables.Proofs.Store
/-!
# The store keeps the registry

`Registry.bootstrap` looks classes and methods up by searching for their names, and fails without
a registry; `ClassStore.bootstrap` follows indexes and undoes what it has changed.  Both do the same.
`Registry.stored` says how a registry is kept: what it knows by name is in the store by place.

From the tables upwards: one step of `ClassSpec.draft` on the kept table does what one step of
`ClassSpec.table` does on the table itself.
-/

namespace ClassTables

/-! ## The index of a list of names -/

namespace NameIndex

/-- Every name of the list leads to its place in the list. -/
def ofNames (names : List String) : NameIndex := ⟨names.zipIdx.reverse⟩

variable {names : List String} {n m : String} {i : Nat}

theorem ofNames_concat (names : List String) (n : String) :
    ofNames (names ++ [n]) = (ofNames names).insert n names.length := by
  unfold ofNames insert
  rw [List.zipIdx_append, List.reverse_append, Nat.zero_add]
  rfl

theorem get?_insert (ix : NameIndex) (n m : String) (i : Nat) :
    (ix.insert n i).get? m = if n = m then some i else ix.get? m := by
  unfold get? insert
  rw [List.find?_cons]
  by_cases h : n = m
  · simp [h]
  · rw [beq_false_of_ne h, if_neg h]

theorem mem_ofNames_iff {e : String × Nat} :
    e ∈ (ofNames names).entries ↔ names[e.2]? = some e.1 := by
  unfold ofNames
  rw [List.mem_reverse, List.mem_zipIdx_iff_getElem?]

theorem map_fst_ofNames : (ofNames names).entries.map (·.1) = names.reverse := by
  unfold ofNames
  rw [List.map_reverse, List.zipIdx_map_fst]

theorem get?_ofNames_eq_none_iff : (ofNames names).get? n = none ↔ n ∉ names := by
  rw [get?_eq_none_iff, ← List.forall_mem_map (P := (· ≠ n)), map_fst_ofNames]
  simp only [List.mem_reverse, ne_eq]
  exact ⟨fun h hmem => h n hmem rfl, fun h m hm hmn => h (hmn ▸ hm)⟩

/-- Under distinct names the index leads to the place where a name stands. -/
theorem get?_ofNames_eq_some_iff (hnd : names.Nodup) :
    (ofNames names).get? n = some i ↔ names[i]? = some n := by
  have hkeys : ((ofNames names).entries.map (·.1)).Nodup := by
    rw [map_fst_ofNames]
    exact List.nodup_reverse.mpr hnd
  unfold get?
  simp only [Option.map_eq_some_iff, find?_key_eq_some_iff hkeys, mem_ofNames_iff]
  constructor
  · rintro ⟨e, ⟨hget, rfl⟩, rfl⟩
    exact hget
  · intro hget
    exact ⟨(n, i), ⟨hget, rfl⟩, rfl⟩

/-- Places are equal when names are. -/
theorem place_eq_iff (hnd : names.Nodup) {j : Nat} (hi : (ofNames names).get? n = some i)
    (hj : names[j]? = some m) : i = j ↔ m = n := by
  rw [get?_ofNames_eq_some_iff hnd] at hi
  constructor
  · rintro rfl
    exact Option.some.inj (hj.symm.trans hi)
  · rintro rfl
    obtain ⟨hlt, -⟩ := List.getElem?_eq_some_iff.mp hi
    exact (List.getElem?_inj hlt hnd).mp (hi.trans hj.symm)

theorem isSome_get?_ofNames (names : List String) (n : String) :
    ((ofNames names).get? n).isSome = decide (n ∈ names) :=
  isSome_eq_decide get?_ofNames_eq_none_iff

/-- A name can be read off its place. -/
theorem nameOf?_ofNames : (ofNames names).nameOf? i = names[i]? := by
  unfold nameOf?
  cases he : (ofNames names).entries.find? (·.2 == i) with
  | some e =>
      have hmem := mem_ofNames_iff.mp (List.mem_of_find?_eq_some he)
      have hplace : e.2 = i := by simpa using List.find?_some he
      rw [← hplace, hmem]
      rfl
  | none =>
      cases hget : names[i]? with
      | none => rfl
      | some n =>
          have hother := List.find?_eq_none.mp he (n, i) (mem_ofNames_iff.mpr hget)
          exact absurd (beq_self_eq_true i) hother

end NameIndex

/-! ## Tables -/

/-- Setting what is made of the only thing of its name. -/
theorem set_map_of_nodup {α β : Type} {key : α → String} {l : List α} (hnd : (l.map key).Nodup)
    (f : α → β) {i : Nat} {n : String} (hi : (l.map key)[i]? = some n) (b : β) :
    (l.map f).set i b = l.map fun x => if key x = n then b else f x := by
  apply List.ext_getElem?
  intro j
  rw [List.getElem?_set, List.length_map, List.getElem?_map, List.getElem?_map]
  obtain ⟨hlt, hn⟩ := List.getElem?_eq_some_iff.mp hi
  rw [List.length_map] at hlt
  rw [List.getElem_map] at hn
  by_cases h : i = j
  · subst h
    rw [if_pos rfl, if_pos hlt, List.getElem?_eq_getElem hlt, Option.map_some, if_pos hn]
  · rw [if_neg h]
    cases hx : l[j]? with
    | none => rfl
    | some x =>
        have hne : key x ≠ n := by
          intro hkey
          have hj : (l.map key)[j]? = some n := by
            rw [List.getElem?_map, hx, Option.map_some, hkey]
          have hlt' : i < (l.map key).length := (List.getElem?_eq_some_iff.mp hi).1
          exact h ((List.getElem?_inj hlt' hnd).mp (hi.trans hj.symm))
        rw [Option.map_some, Option.map_some, if_neg hne]

section Tables

variable {F : Type} {cls : String} {table : List (NamedSlot F)} {p : String → Bool}

/-- The names of the methods of a table, slot by slot. -/
abbrev tableNames (table : List (NamedSlot F)) : List String := table.map (·.name)

/-- A table as it is kept. -/
def TableDraft.ofTable (table : List (NamedSlot F)) (listed : List Bool) : TableDraft F :=
  { vtable := table.map (·.slot), slots := .ofNames (tableNames table), listed }

/-- Overriding leaves the names where they are. -/
theorem tableNames_foldl_override (ms table : List (NamedSlot F)) :
    tableNames (ms.foldl override table) = tableNames table := by
  rw [foldl_override, tableNames, List.map_map]
  exact List.map_congr_left fun old _ => overriding_name ms old

theorem tableNames_override (table : List (NamedSlot F)) (m : NamedSlot F) :
    tableNames (override table m) = tableNames table := tableNames_foldl_override [m] table

theorem hasMethod_eq_decide (table : List (NamedSlot F)) (n : String) :
    hasMethod table n = decide (n ∈ tableNames table) := by
  rw [Bool.eq_iff_iff, hasMethod_iff, decide_eq_true_iff]

/-- Marking the slot of a method marks its name. -/
theorem set_listed {names : List String} (hnd : names.Nodup) {i : Nat} {n : String}
    (hi : names[i]? = some n) (p : String → Bool) :
    (names.map p).set i true = names.map fun k => p k || k == n := by
  have hid : names.map id = names := List.map_id names
  rw [set_map_of_nodup (hid.symm ▸ hnd) p (hid.symm ▸ hi)]
  apply List.map_congr_left
  intro k _
  by_cases h : k = n
  · simp [h]
  · simp [h]

/-- Overriding in place is putting the implementation in the slot. -/
theorem set_slot {table : List (NamedSlot F)} (hnd : (tableNames table).Nodup) {i : Nat}
    {m : NamedSlot F} (hi : (tableNames table)[i]? = some m.name) :
    (table.map (·.slot)).set i m.slot = (override table m).map (·.slot) := by
  rw [set_map_of_nodup hnd (·.slot) hi, override, List.map_map]
  apply List.map_congr_left
  intro old _
  show _ = (if old.name = m.name then m else old).slot
  split
  · rfl
  · rfl

namespace TableDraft

theorem parentSlot_ofTable {listed : List Bool} {n : String} {i : Nat}
    (hnd : (tableNames table).Nodup) (hi : (tableNames table)[i]? = some n) :
    (ofTable table listed).parentSlot cls n = .ok i := by
  have hget : (ofTable table listed).slots.get? n = some i :=
    (NameIndex.get?_ofNames_eq_some_iff hnd).mpr hi
  rw [parentSlot, hget]

theorem parentSlot_ofTable_of_not_mem {listed : List Bool} {n : String}
    (h : n ∉ tableNames table) :
    (ofTable table listed).parentSlot cls n = .error (.missingParentMethod cls n) := by
  have hget : (ofTable table listed).slots.get? n = none :=
    NameIndex.get?_ofNames_eq_none_iff.mpr h
  rw [parentSlot, hget]

theorem inherit_ofTable (hnd : (tableNames table).Nodup) (cls : String) (p : String → Bool)
    (n : String) :
    (ofTable table ((tableNames table).map p)).inherit cls n =
      if hasMethod table n then
        .ok (ofTable table ((tableNames table).map fun k => p k || k == n))
      else .error (.missingParentMethod cls n) := by
  rw [hasMethod_eq_decide]
  by_cases hn : n ∈ tableNames table
  · obtain ⟨i, hi⟩ := List.mem_iff_getElem?.mp hn
    rw [inherit, parentSlot_ofTable hnd hi, decide_eq_true hn, if_pos rfl, ← set_listed hnd hi p]
    rfl
  · rw [inherit, parentSlot_ofTable_of_not_mem hn, decide_eq_false hn]
    rfl

theorem override_ofTable (hnd : (tableNames table).Nodup) (cls : String) (p : String → Bool)
    (m : NamedSlot F) :
    (ofTable table ((tableNames table).map p)).override cls m =
      if hasMethod table m.name then
        .ok (ofTable (ClassTables.override table m)
          ((tableNames table).map fun k => p k || k == m.name))
      else .error (.missingParentMethod cls m.name) := by
  rw [hasMethod_eq_decide]
  by_cases hn : m.name ∈ tableNames table
  · obtain ⟨i, hi⟩ := List.mem_iff_getElem?.mp hn
    rw [override, parentSlot_ofTable hnd hi, decide_eq_true hn, if_pos rfl, ← set_listed hnd hi p,
      ofTable, ofTable, ← set_slot hnd hi, tableNames_override]
    rfl
  · rw [override, parentSlot_ofTable_of_not_mem hn, decide_eq_false hn]
    rfl

/-- The first slot that no list accounts for. -/
theorem checkListed_ofTable (cls : String) (p : String → Bool) :
    (ofTable table ((tableNames table).map p)).checkListed cls =
      match (tableNames table).find? (!p ·) with
      | some n => .error (.unlistedMethod cls n)
      | none => .ok () := by
  have hidx : ((tableNames table).map p).findIdx? (!·) = (tableNames table).findIdx? (!p ·) :=
    List.findIdx?_map
  unfold checkListed ofTable
  rw [hidx, List.find?_eq_bind_findIdx?_getElem?]
  cases hi : (tableNames table).findIdx? (!p ·) with
  | none => rfl
  | some i =>
      obtain ⟨hlt, -⟩ := List.findIdx?_eq_some_iff_getElem.mp hi
      dsimp only
      rw [NameIndex.nameOf?_ofNames, Option.bind_some, List.getElem?_eq_getElem hlt]
      rfl

theorem append_ofTable (cls : String) (listed : List Bool) (m : NamedSlot F) :
    (ofTable table listed).append cls m =
      if hasMethod table m.name then .error (.duplicateMethod cls m.name)
      else .ok (ofTable (table ++ [m]) listed) := by
  have hslots : (NameIndex.ofNames (tableNames table)).insert m.name (table.map (·.slot)).length =
      .ofNames (tableNames (table ++ [m])) := by
    rw [tableNames, tableNames, List.map_append, List.map_singleton, NameIndex.ofNames_concat,
      List.length_map, List.length_map]
  have hvtable : table.map (·.slot) ++ [m.slot] = (table ++ [m]).map (·.slot) := by
    rw [List.map_append, List.map_singleton]
  unfold append ofTable
  rw [NameIndex.isSome_get?_ofNames, hasMethod_eq_decide]
  dsimp only
  rw [hslots, hvtable]

/-! ### Along the lists of a specification -/

theorem foldlM_inherit (hnd : (tableNames table).Nodup) (cls : String) :
    ∀ (ns : List String) (p : String → Bool),
      ns.foldlM (inherit cls) (ofTable table ((tableNames table).map p)) =
        (ClassTables.checkListed cls table ns).map fun _ =>
          ofTable table ((tableNames table).map fun k => p k || ns.contains k)
  | [], p => by
      simp only [List.contains_nil, Bool.or_false]
      rfl
  | n :: ns, p => by
      rw [List.foldlM_cons, inherit_ofTable hnd, ClassTables.checkListed, List.forM]
      by_cases h : hasMethod table n = true
      · rw [if_pos h, if_pos h]
        show ns.foldlM (inherit cls) _ = (ClassTables.checkListed cls table ns).map _
        rw [foldlM_inherit hnd cls ns]
        simp only [List.contains_cons, Bool.or_assoc]
      · rw [if_neg h, if_neg h]
        rfl

theorem foldlM_override (cls : String) : ∀ (ms table : List (NamedSlot F)) (p : String → Bool),
    (tableNames table).Nodup →
      ms.foldlM (override cls) (ofTable table ((tableNames table).map p)) =
        (ClassTables.checkListed cls table (ms.map (·.name))).map fun _ =>
          ofTable (ms.foldl ClassTables.override table)
            ((tableNames table).map fun k => p k || (ms.map (·.name)).contains k)
  | [], table, p, _ => by
      simp only [List.map_nil, List.contains_nil, Bool.or_false]
      rfl
  | m :: ms, table, p, hnd => by
      have hnames := tableNames_override table m
      have hlisted : ClassTables.checkListed cls (ClassTables.override table m) (ms.map (·.name)) =
          ClassTables.checkListed cls table (ms.map (·.name)) := by
        unfold ClassTables.checkListed
        simp only [hasMethod_eq_decide, hnames]
      rw [List.foldlM_cons, override_ofTable hnd, List.map_cons, ClassTables.checkListed,
        List.forM]
      by_cases h : hasMethod table m.name = true
      · have ih := foldlM_override cls ms (ClassTables.override table m)
          (fun k => p k || k == m.name) (hnames.symm ▸ hnd)
        rw [hnames, hlisted] at ih
        rw [if_pos h, if_pos h]
        show ms.foldlM (override cls) _ = (ClassTables.checkListed cls table _).map _
        rw [ih]
        simp only [List.contains_cons, Bool.or_assoc, List.foldl_cons]
      · rw [if_neg h, if_neg h]
        rfl

theorem foldlM_append (cls : String) (listed : List Bool) : ∀ ms table : List (NamedSlot F),
    ms.foldlM (append cls) (ofTable table listed) =
      (appendNovel cls table ms).map (ofTable · listed)
  | [], _ => rfl
  | m :: ms, table => by
      rw [List.foldlM_cons, append_ofTable, appendNovel]
      by_cases h : hasMethod table m.name = true
      · rw [if_pos h, if_pos h]
        rfl
      · rw [if_neg h, if_neg h]
        exact foldlM_append cls listed ms (table ++ [m])

end TableDraft

/-- **A specification makes of the kept table what it makes of the table.** -/
theorem ClassSpec.draft_ofTable (spec : ClassSpec F) (hnd : (tableNames table).Nodup) :
    ∃ listed, spec.draft (.ofTable table ((tableNames table).map fun _ => false)) =
      (spec.table table).map (TableDraft.ofTable · listed) := by
  have hnames := tableNames_foldl_override spec.overridden table
  refine ⟨(tableNames table).map fun k =>
    false || spec.inherited.contains k || (spec.overridden.map (·.name)).contains k, ?_⟩
  unfold draft ClassSpec.table
  rw [TableDraft.foldlM_inherit hnd]
  cases checkListed spec.name table spec.inherited with
  | error e => rfl
  | ok u =>
      show (spec.overridden.foldlM _ _ >>= _) = Except.map _ (checkListed _ _ _ >>= _)
      rw [TableDraft.foldlM_override spec.name _ _ _ hnd]
      cases checkListed spec.name table (spec.overridden.map (·.name)) with
      | error e => rfl
      | ok u' =>
          show (TableDraft.checkListed _ _ >>= _) = _
          rw [← hnames, TableDraft.checkListed_ofTable, hnames, List.find?_map]
          simp only [Function.comp_def, Bool.false_or]
          cases table.find? (fun m => !(spec.inherited.contains m.name ||
              (spec.overridden.map (·.name)).contains m.name)) with
          | some m => rfl
          | none => exact TableDraft.foldlM_append spec.name _ spec.novel _

end Tables

/-! ## Registries -/

section Stored

variable {F : Type}

/-- A class as it is kept, where `names` are those of the loaded classes. -/
def LoadedClass.stored (names : List String) (c : LoadedClass F) : StoredClass F :=
  { name := c.name
    parcel := c.parcel
    parent := c.parent.bind (NameIndex.ofNames names).get?
    vtable := c.vtable
    slots := .ofNames (tableNames c.table)
    ivarsOffset := c.ivarsOffset
    allocSize := c.allocSize
    align := c.align }

/-- One name more leaves the kept form of a class whose parent is loaded. -/
theorem LoadedClass.stored_concat {names : List String} {n : String} {c : LoadedClass F}
    (hparent : ∀ p, c.parent = some p → p ∈ names) (hn : n ∉ names) :
    c.stored (names ++ [n]) = c.stored names := by
  have hplace : c.parent.bind (NameIndex.ofNames (names ++ [n])).get? =
      c.parent.bind (NameIndex.ofNames names).get? := by
    cases hp : c.parent with
    | none => rfl
    | some p =>
        have hne : n ≠ p := by
          rintro rfl
          exact hn (hparent n hp)
        rw [Option.bind_some, Option.bind_some, NameIndex.ofNames_concat, NameIndex.get?_insert,
          if_neg hne]
  unfold stored
  rw [hplace]

namespace Registry

/-- A registry as it is kept. -/
def stored (r : Registry F) : ClassStore F :=
  { classes := r.classes.map (·.stored r.names), index := .ofNames r.names }

@[simp] theorem stored_classes (r : Registry F) :
    r.stored.classes = r.classes.map (·.stored r.names) := rfl

@[simp] theorem stored_index (r : Registry F) : r.stored.index = .ofNames r.names := rfl

/-- What loading keeps true of a registry: names are distinct, those of classes and those of the
methods of a class, and parents are loaded. -/
structure Sound (r : Registry F) : Prop where
  names : r.names.Nodup
  tables : ∀ c ∈ r.classes, (tableNames c.table).Nodup
  parents : ∀ c ∈ r.classes, ∀ p, c.parent = some p → p ∈ r.names

theorem sound_empty : Sound ({} : Registry F) :=
  ⟨List.nodup_nil, fun _ h => (nomatch h), fun _ h => (nomatch h)⟩

variable {r : Registry F} {spec : ClassSpec F} {n : String} {c : LoadedClass F}

theorem getElem?_names (r : Registry F) (i : Nat) : r.names[i]? = r.classes[i]?.map (·.name) :=
  List.getElem?_map

theorem class?_eq_none_iff : r.class? n = none ↔ n ∉ r.names := find?_key_eq_none_iff

/-- A class that is found stands at the place of its name. -/
theorem exists_place (h : r.names.Nodup) (hc : r.class? n = some c) :
    ∃ i, (NameIndex.ofNames r.names).get? n = some i ∧ r.classes[i]? = some c := by
  obtain ⟨hmem, hname⟩ := (find?_key_eq_some_iff h).mp hc
  obtain ⟨i, hi⟩ := List.mem_iff_getElem?.mp hmem
  refine ⟨i, ?_, hi⟩
  rw [NameIndex.get?_ofNames_eq_some_iff h, getElem?_names, hi, Option.map_some, hname]

/-- **Loading a class is pushing its kept form.** -/
theorem Sound.stored_push (h : r.Sound) (hn : c.name ∉ r.names)
    (hparent : ∀ p, c.parent = some p → p ∈ r.names) :
    (⟨r.classes ++ [c]⟩ : Registry F).stored = r.stored.push (c.stored r.names) := by
  have hnames : Registry.names ⟨r.classes ++ [c]⟩ = r.names ++ [c.name] := List.map_append
  have hold : r.classes.map (·.stored (r.names ++ [c.name])) = r.classes.map (·.stored r.names) :=
    List.map_congr_left fun a ha => LoadedClass.stored_concat (h.parents a ha) hn
  have hlength : r.names.length = (r.classes.map (·.stored r.names)).length := by
    rw [Registry.names, List.length_map, List.length_map]
  unfold stored ClassStore.push
  rw [hnames, List.map_append, hold, List.map_singleton, LoadedClass.stored_concat hparent hn,
    NameIndex.ofNames_concat, hlength]
  rfl

/-- The walk by places finds the kept form of what the walk by names finds. -/
theorem foreignFrom?_stored (h : r.names.Nodup) (parcel : String) :
    ∀ (cs : List (LoadedClass F)), cs.reverse <+: r.classes → ∀ parent : Option String,
      StoredClass.foreignFrom? parcel (parent.bind (NameIndex.ofNames r.names).get?)
          (cs.map (·.stored r.names)) =
        (foreignAncestor? parcel parent cs).map (·.stored r.names)
  | _, _, none => by
      unfold StoredClass.foreignFrom? foreignAncestor?
      rfl
  | [], _, some n => by
      rw [foreignAncestor?]
      cases (some n).bind (NameIndex.ofNames r.names).get? with
      | none => rfl
      | some i => rfl
  | c :: cs, hpre, some n => by
      rw [List.reverse_cons] at hpre
      have hprecs : cs.reverse <+: r.classes := (List.prefix_append _ _).trans hpre
      -- the first class stands where its place says
      have hplace : r.names[cs.length]? = some c.name := by
        have hget := List.prefix_iff_getElem?.mp hpre cs.length (by simp)
        rw [getElem?_names, hget, Option.map_some]
        simp
      have ih := foreignFrom?_stored h parcel cs hprecs
      rw [Option.bind_some, List.map_cons, foreignAncestor?]
      cases hi : (NameIndex.ofNames r.names).get? n with
      | none =>
          have hn := NameIndex.get?_ofNames_eq_none_iff.mp hi
          have hne : c.name ≠ n := by
            rintro rfl
            exact hn (List.mem_of_getElem? hplace)
          have ihn := ih (some n)
          rw [Option.bind_some, hi] at ihn
          rw [if_neg hne, ← ihn]
          unfold StoredClass.foreignFrom?
          rfl
      | some i =>
          have hiff : i = (cs.map (·.stored r.names)).length ↔ c.name = n := by
            rw [List.length_map]
            exact NameIndex.place_eq_iff h hi hplace
          rw [StoredClass.foreignFrom?]
          by_cases hn : c.name = n
          · rw [if_pos (hiff.mpr hn), if_pos hn]
            show (if c.parcel ≠ parcel then some _ else _) = _
            by_cases hp : c.parcel ≠ parcel
            · rw [if_pos hp, if_pos hp]
              rfl
            · rw [if_neg hp, if_neg hp]
              exact ih c.parent
          · have ihn := ih (some n)
            rw [Option.bind_some, hi] at ihn
            rw [if_neg (mt hiff.mp hn), if_neg hn]
            exact ihn

/-! ### Loading -/

variable {parent : Option (LoadedClass F)}

/-- The parent that a specification names is loaded, or loading fails for the want of it.  The store
finds it at the place of its name. -/
theorem Sound.parent_stored (h : r.Sound) (spec : ClassSpec F) :
    (∃ e, r.parentOf spec = .error e ∧ r.stored.parentPlace spec = .error e) ∨
      ∃ place parent, r.parentOf spec = .ok parent ∧ r.stored.parentPlace spec = .ok place ∧
        place = spec.parent.bind (NameIndex.ofNames r.names).get? ∧
          place.bind (r.stored.classes[·]?) = parent.map (·.stored r.names) ∧
            (∀ c, parent = some c → c ∈ r.classes) ∧
              ∀ p, spec.parent = some p → p ∈ r.names := by
  unfold parentOf ClassStore.parentPlace
  cases spec.parent with
  | none =>
      exact Or.inr ⟨none, none, rfl, rfl, rfl, rfl, fun _ h => (nomatch h), fun _ h => (nomatch h)⟩
  | some p =>
      simp only [stored_index, stored_classes]
      cases hc : r.class? p with
      | none =>
          have hp := class?_eq_none_iff.mp hc
          rw [NameIndex.get?_ofNames_eq_none_iff.mpr hp]
          exact Or.inl ⟨_, rfl, rfl⟩
      | some c =>
          obtain ⟨i, hi, hget⟩ := exists_place h.names hc
          obtain ⟨hmem, rfl⟩ := (find?_key_eq_some_iff h.names).mp hc
          have hplace : (r.classes.map (·.stored r.names))[i]? = some (c.stored r.names) := by
            rw [List.getElem?_map, hget, Option.map_some]
          refine Or.inr ⟨some i, some c, rfl, ?_, ?_, hplace, ?_, ?_⟩
          · rw [hi]
          · rw [Option.bind_some, hi]
          · rintro _ ⟨⟩
            exact hmem
          · rintro _ ⟨⟩
            exact List.mem_map_of_mem hmem

theorem tableDraft_stored (names : List String) (c : LoadedClass F) :
    (c.stored names).tableDraft = .ofTable c.table ((tableNames c.table).map fun _ => false) := by
  have hlisted : List.replicate (c.stored names).vtable.length false =
      (tableNames c.table).map fun _ => false := by
    rw [List.map_const', tableNames, List.length_map]
    show List.replicate (c.table.map (·.slot)).length false = _
    rw [List.length_map]
  unfold StoredClass.tableDraft
  rw [hlisted]
  rfl

/-- A class gets the kept form of its table. -/
theorem draft_stored (hp : ∀ c, parent = some c → (tableNames c.table).Nodup)
    (spec : ClassSpec F) (names : List String) :
    ∃ listed, spec.draft (((parent.map (·.stored names)).map (·.tableDraft)).getD {}) =
      (spec.table ((parent.map (·.table)).getD [])).map (TableDraft.ofTable · listed) := by
  cases parent with
  | none =>
      have hnil : (tableNames ([] : List (NamedSlot F))).Nodup := List.nodup_nil
      exact ClassSpec.draft_ofTable spec hnil
  | some c =>
      rw [Option.map_some, Option.map_some, Option.getD_some, tableDraft_stored]
      exact ClassSpec.draft_ofTable spec (hp c rfl)

theorem isSome_class? (r : Registry F) (n : String) :
    (r.class? n).isSome = decide (n ∈ r.names) :=
  isSome_eq_decide class?_eq_none_iff

/-- The class that loading adds is kept as the store would make it. -/
theorem Sound.classOf_stored (h : r.Sound) {spec : ClassSpec F} {place : Option Nat}
    (hplace : place = spec.parent.bind (NameIndex.ofNames r.names).get?)
    (hparent : place.bind (r.stored.classes[·]?) = parent.map (·.stored r.names))
    (table : List (NamedSlot F)) (listed : List Bool) :
    r.stored.classOf spec place (.ofTable table listed) =
      (r.loadedOf spec parent table).stored r.names := by
  have hforeign : StoredClass.foreignFrom? spec.parcel place r.stored.classes.reverse =
      (foreignAncestor? spec.parcel spec.parent r.classes.reverse).map (·.stored r.names) := by
    have hall : r.classes.reverse.reverse <+: r.classes :=
      (List.reverse_reverse r.classes).symm ▸ List.prefix_rfl
    rw [hplace, stored_classes, ← List.map_reverse]
    exact foreignFrom?_stored h.names spec.parcel _ hall spec.parent
  unfold ClassStore.classOf
  dsimp only
  rw [hforeign, hparent, Option.map_map, Option.map_map, hplace]
  rfl

section Cases

variable {e : RegisterError} {place : Option Nat}

theorem register_of_known (h : spec.name ∈ r.names) :
    r.register spec = .error (.duplicateClass spec.name) := by
  unfold register
  rw [isSome_class?, decide_eq_true h]
  rfl

theorem register_of_orphan (h : spec.name ∉ r.names) (hp : r.parentOf spec = .error e) :
    r.register spec = .error e := by
  unfold register
  rw [isSome_class?, decide_eq_false h, hp]
  rfl

theorem register_of_parent (h : spec.name ∉ r.names) (hp : r.parentOf spec = .ok parent) :
    r.register spec = (spec.table ((parent.map (·.table)).getD [])).map fun table =>
      ⟨r.classes ++ [r.loadedOf spec parent table]⟩ := by
  unfold register
  rw [isSome_class?, decide_eq_false h, hp]
  rfl

theorem newClass_of_known (h : spec.name ∈ r.names) :
    r.stored.newClass spec = .error (.duplicateClass spec.name) := by
  unfold ClassStore.newClass
  rw [stored_index, NameIndex.isSome_get?_ofNames, decide_eq_true h]
  rfl

theorem newClass_of_orphan (h : spec.name ∉ r.names) (hp : r.stored.parentPlace spec = .error e) :
    r.stored.newClass spec = .error e := by
  unfold ClassStore.newClass
  rw [stored_index, NameIndex.isSome_get?_ofNames, decide_eq_false h, hp]
  rfl

theorem newClass_of_parent (h : spec.name ∉ r.names) (hp : r.stored.parentPlace spec = .ok place) :
    r.stored.newClass spec =
      (spec.draft (((place.bind (r.stored.classes[·]?)).map (·.tableDraft)).getD {})).map
        (r.stored.classOf spec place) := by
  unfold ClassStore.newClass
  rw [stored_index, NameIndex.isSome_get?_ofNames, decide_eq_false h, hp]
  rfl

end Cases

/-- **Loading a class is kept.** -/
theorem Sound.register_stored (h : r.Sound) (spec : ClassSpec F) :
    r.stored.register spec = match r.register spec with
      | .ok r' => (r'.stored, .ok ())
      | .error e => (r.stored, .error e) := by
  unfold ClassStore.register
  by_cases hn : spec.name ∈ r.names
  · rw [register_of_known hn, newClass_of_known hn]
  · rcases h.parent_stored spec with
      ⟨e, he, he'⟩ | ⟨place, parent, hp, hp', hplace, hparent, hmem, hnames⟩
    · rw [register_of_orphan hn he, newClass_of_orphan hn he']
    · have hnd : ∀ c, parent = some c → (tableNames c.table).Nodup :=
        fun c hc => h.tables c (hmem c hc)
      obtain ⟨listed, hdraft⟩ := draft_stored hnd spec r.names
      rw [register_of_parent hn hp, newClass_of_parent hn hp', hparent, hdraft]
      cases spec.table ((parent.map (·.table)).getD []) with
      | error e => rfl
      | ok table =>
          have hpush : (⟨r.classes ++ [r.loadedOf spec parent table]⟩ : Registry F).stored = _ :=
            h.stored_push hn hnames
          show (r.stored.push (r.stored.classOf spec place (.ofTable table listed)), _) = _
          rw [h.classOf_stored hplace hparent, ← hpush]
          rfl

/-- The methods of a class are those of its parent, slot by slot, and then the novel ones. -/
theorem tableNames_of_table {parent table : List (NamedSlot F)} (h : spec.table parent = .ok table) :
    tableNames table = tableNames parent ++ spec.novel.map (·.name) := by
  obtain ⟨-, -, -, -, rfl⟩ := ClassSpec.table_eq_ok_iff.mp h
  have hnames := tableNames_foldl_override spec.overridden parent
  rw [foldl_override] at hnames
  rw [← hnames]
  exact List.map_append

/-- A table keeps distinct names. -/
theorem tableNames_nodup {parent table : List (NamedSlot F)} (hnd : (tableNames parent).Nodup)
    (h : spec.table parent = .ok table) : (tableNames table).Nodup := by
  obtain ⟨-, -, -, hfresh, -⟩ := ClassSpec.table_eq_ok_iff.mp h
  rw [tableNames_of_table h]
  exact nodup_append_iff_freshNames.mpr ⟨hnd, hfresh⟩

theorem Sound.register {r' : Registry F} (h : r.Sound) (hr : r.register spec = .ok r') :
    r'.Sound := by
  obtain ⟨hnew, parent, table, hp, ht, rfl⟩ := register_eq_ok_iff.mp hr
  rcases h.parent_stored spec with ⟨e, he, -⟩ | ⟨-, parent', hp', -, -, -, hmem, hnames⟩
  · exact nomatch hp.symm.trans he
  cases hp.symm.trans hp'
  have hadd : Registry.names ⟨r.classes ++ [r.loadedOf spec parent table]⟩ =
      r.names ++ [spec.name] := List.map_append
  constructor
  · rw [hadd, ← List.concat_eq_append, List.nodup_concat]
    exact ⟨class?_eq_none_iff.mp hnew, h.names⟩
  · intro c hc
    rcases List.mem_append.mp hc with hc | hc
    · exact h.tables c hc
    · rw [List.mem_singleton.mp hc]
      apply tableNames_nodup _ ht
      cases parent with
      | none => exact List.nodup_nil
      | some p => exact h.tables p (hmem p rfl)
  · intro c hc p hcp
    rw [hadd]
    apply List.mem_append_left
    rcases List.mem_append.mp hc with hc | hc
    · exact h.parents c hc p hcp
    · rw [List.mem_singleton.mp hc] at hcp
      exact hnames p hcp

/-- **A run of loading is kept, as far as it goes.** -/
theorem Sound.registerAll_stored : ∀ {r : Registry F}, r.Sound → ∀ specs : List (ClassSpec F),
    match r.bootstrap specs with
    | .ok r' => r.stored.registerAll specs = (r'.stored, .ok ()) ∧ r'.Sound
    | .error e => ∃ s', r.stored.registerAll specs = (s', .error e)
  | r, h, [] => ⟨rfl, h⟩
  | r, h, spec :: specs => by
      have hstep := h.register_stored spec
      rw [bootstrap, List.foldlM_cons, ClassStore.registerAll, hstep]
      cases hr : r.register spec with
      | error e => exact ⟨r.stored, rfl⟩
      | ok r₁ => exact (h.register hr).registerAll_stored specs

/-- **Loading classes, all or none of them, is kept.** -/
theorem Sound.bootstrap_stored (h : r.Sound) (specs : List (ClassSpec F)) :
    r.stored.bootstrap specs = match r.bootstrap specs with
      | .ok r' => (r'.stored, .ok ())
      | .error e => (r.stored, .error e) := by
  have hall := h.registerAll_stored specs
  cases hr : r.bootstrap specs with
  | ok r' =>
      rw [hr] at hall
      exact ClassStore.bootstrap_eq_ok_iff.mpr hall.1
  | error e =>
      rw [hr] at hall
      obtain ⟨s', hall⟩ := hall
      have hboot : r.stored.bootstrap specs = (s'.takeBack r.stored.size, .error e) := by
        unfold ClassStore.bootstrap
        rw [hall]
      rw [hboot, ClassStore.bootstrap_eq_error hboot]

/-! ### Looking up -/

theorem stored_class? (h : r.names.Nodup) (n : String) :
    r.stored.class? n = (r.class? n).map (·.stored r.names) := by
  unfold ClassStore.class?
  rw [stored_index, stored_classes]
  cases hc : r.class? n with
  | none =>
      rw [NameIndex.get?_ofNames_eq_none_iff.mpr (class?_eq_none_iff.mp hc)]
      rfl
  | some c =>
      obtain ⟨i, hi, hget⟩ := exists_place h hc
      rw [hi, Option.bind_some, List.getElem?_map, hget]

/-- The loaded parent of a class. -/
def parent? (r : Registry F) (c : LoadedClass F) : Option (LoadedClass F) := c.parent.bind r.class?

theorem Sound.stored_parentOf? (h : r.Sound) (hc : c ∈ r.classes) :
    r.stored.parentOf? (c.stored r.names) = (r.parent? c).map (·.stored r.names) := by
  show (c.parent.bind (NameIndex.ofNames r.names).get?).bind (r.stored.classes[·]?) =
    (c.parent.bind r.class?).map (·.stored r.names)
  cases hp : c.parent with
  | none => rfl
  | some n =>
      have hn : r.class? n ≠ none := fun hnone =>
        class?_eq_none_iff.mp hnone (h.parents c hc n hp)
      obtain ⟨a, ha⟩ := Option.ne_none_iff_exists'.mp hn
      obtain ⟨i, hi, hget⟩ := exists_place h.names ha
      rw [Option.bind_some, Option.bind_some, hi, ha, Option.bind_some, stored_classes,
        List.getElem?_map, hget]

theorem stored_slotOf? {names : List String} (h : (tableNames c.table).Nodup) (m : String) :
    (c.stored names).slotOf? m = c.slotOf? m := by
  apply Option.ext
  intro i
  show (NameIndex.ofNames (tableNames c.table)).get? m = some i ↔
    c.table.findIdx? (·.name == m) = some i
  rw [NameIndex.get?_ofNames_eq_some_iff h, findIdx?_key_eq_some_iff h]

theorem Sound.stored_dispatch (h : r.Sound) (cls m : String) :
    r.stored.dispatch cls m = r.dispatch cls m := by
  unfold ClassStore.dispatch dispatch
  rw [stored_class? h.names]
  cases hc : r.class? cls with
  | none => rfl
  | some c =>
      have hnd := h.tables c (List.mem_of_find?_eq_some hc)
      dsimp only [Option.map_some]
      have hslotOf : c.slotOf? m = c.table.findIdx? (·.name == m) := rfl
      rw [stored_slotOf? hnd, hslotOf, List.find?_eq_bind_findIdx?_getElem?]
      cases hi : c.table.findIdx? (·.name == m) with
      | none => rfl
      | some i =>
          obtain ⟨hlt, -⟩ := List.findIdx?_eq_some_iff_getElem.mp hi
          have hslot : (c.stored r.names).vtable[i]? = some c.table[i].slot := by
            show (c.table.map (·.slot))[i]? = _
            rw [List.getElem?_map, List.getElem?_eq_getElem hlt, Option.map_some]
          dsimp only
          rw [hslot, Option.bind_some, List.getElem?_eq_getElem hlt]
          cases c.table[i] with
          | mk name slot => cases slot <;> rfl

end Registry

/-! ## After any calls -/

/-- The store after some calls, of which any may have failed. -/
def ClassStore.after (calls : List (List (ClassSpec F))) : ClassStore F :=
  calls.foldl (fun s specs => (s.bootstrap specs).1) {}

/-- The registry after some calls; one that fails leaves the registry that was there. -/
def Registry.after (calls : List (List (ClassSpec F))) : Registry F :=
  calls.foldl (fun r specs => (r.bootstrap specs).toOption.getD r) {}

theorem after_stored (calls : List (List (ClassSpec F))) :
    ClassStore.after calls = (Registry.after calls).stored ∧ (Registry.after calls).Sound := by
  induction calls using List.reverseRecOn with
  | nil => exact ⟨rfl, Registry.sound_empty⟩
  | append_singleton calls specs ih =>
      obtain ⟨heq, hsound⟩ := ih
      have hall := hsound.registerAll_stored specs
      have hboot := hsound.bootstrap_stored specs
      unfold ClassStore.after Registry.after at *
      rw [List.foldl_append, List.foldl_append, List.foldl_cons, List.foldl_cons, List.foldl_nil,
        List.foldl_nil, heq, hboot]
      cases hr : Registry.bootstrap _ specs with
      | error e => exact ⟨rfl, hsound⟩
      | ok r' =>
          rw [hr] at hall
          exact ⟨rfl, hall.2⟩

/-- **The store is the registry.**  After any calls both hold the same classes, find a class under
the same names, answer every call of a method alike, and accept and refuse the same specifications,
for the same reasons. -/
theorem after_keeps_registry (calls : List (List (ClassSpec F))) :
    (ClassStore.after calls).size = (Registry.after calls).size ∧
      (∀ n, (ClassStore.after calls).class? n =
        ((Registry.after calls).class? n).map (·.stored (Registry.after calls).names)) ∧
      (∀ cls m, (ClassStore.after calls).dispatch cls m = (Registry.after calls).dispatch cls m) ∧
      ∀ specs, ((ClassStore.after calls).bootstrap specs).2 =
        ((Registry.after calls).bootstrap specs).map fun _ => () := by
  obtain ⟨heq, hsound⟩ := after_stored calls
  rw [heq]
  refine ⟨List.length_map _, Registry.stored_class? hsound.names, hsound.stored_dispatch, ?_⟩
  intro specs
  rw [hsound.bootstrap_stored]
  cases (Registry.after calls).bootstrap specs with
  | error e => rfl
  | ok r' => rfl

end Stored

end ClassTables
