import ClassTables.Registry.Basic
import ClassTables.Proofs.Lists
import Mathlib.Data.List.Induction
/-!
# Loading one class

What `Registry.register` accepts and what it makes of a specification, said once for each step:
the names that are listed (`checkListed`), the slots that are overridden (`override`), the novel
methods at the end (`appendNovel`), and the walk up to the nearest class of another parcel
(`foreignAncestor?`), which looks along a chain of parents.
-/

namespace ClassTables

variable {F : Type}

/-! ## Tables -/

theorem hasMethod_iff {table : List (NamedSlot F)} {n : String} :
    hasMethod table n = true ↔ n ∈ table.map (·.name) := by
  simp [hasMethod]

theorem checkListed_eq_ok_iff {cls : String} {table : List (NamedSlot F)} {ns : List String} :
    checkListed cls table ns = .ok () ↔ ∀ n ∈ ns, n ∈ table.map (·.name) := by
  rw [checkListed, forM_eq_ok_iff]
  refine forall₂_congr fun n _ => ?_
  rw [← hasMethod_iff]
  by_cases h : hasMethod table n = true
  · simp [h]
  · simp [h]

theorem FreshNames.congr {α : Type} {key : α → String} {seen seen' : List String} {l : List α}
    (h : ∀ n, n ∈ seen ↔ n ∈ seen') : FreshNames key seen l ↔ FreshNames key seen' l := by
  simp only [FreshNames, h]

theorem appendNovel_eq_ok_iff {cls : String} : ∀ {ms table table' : List (NamedSlot F)},
    appendNovel cls table ms = .ok table' ↔
      FreshNames (fun m : NamedSlot F => m.name) (table.map (·.name)) ms ∧ table' = table ++ ms
  | [], table, table' => by simp [appendNovel, eq_comm]
  | m :: ms, table, table' => by
      have hseen : ∀ n, n ∈ (table ++ [m]).map (·.name) ↔ n ∈ m.name :: table.map (·.name) := by
        intro n
        rw [List.map_append, List.mem_append, List.mem_cons, or_comm]
        simp
      rw [appendNovel, freshNames_cons]
      by_cases h : hasMethod table m.name = true
      · rw [if_pos h]
        exact ⟨fun h' => (nomatch h'), fun h' => absurd (hasMethod_iff.mp h) h'.1.1⟩
      · rw [if_neg h, appendNovel_eq_ok_iff, FreshNames.congr hseen, List.append_assoc,
          List.singleton_append]
        rw [hasMethod_iff] at h
        exact ⟨fun ⟨hf, he⟩ => ⟨⟨h, hf⟩, he⟩, fun ⟨⟨_, hf⟩, he⟩ => ⟨hf, he⟩⟩

/-- What stands in a slot after overriding: the last override of its method, if there is one. -/
def overriding (ms : List (NamedSlot F)) (old : NamedSlot F) : NamedSlot F :=
  (ms.reverse.find? (·.name == old.name)).getD old

theorem overriding_name (ms : List (NamedSlot F)) (old : NamedSlot F) :
    (overriding ms old).name = old.name := by
  rw [overriding]
  cases h : ms.reverse.find? (·.name == old.name) with
  | none => rfl
  | some m => simpa using List.find?_some h

/-- **Overriding goes slot by slot.** -/
theorem foldl_override (ms : List (NamedSlot F)) (table : List (NamedSlot F)) :
    ms.foldl override table = table.map (overriding ms) := by
  -- the last override counts, so the induction is from the end
  induction ms using List.reverseRecOn with
  | nil => exact (List.map_id table).symm
  | append_singleton ms m ih =>
      rw [List.foldl_append, List.foldl_cons, List.foldl_nil, ih, override, List.map_map]
      refine List.map_congr_left fun old _ => ?_
      rw [Function.comp_apply, overriding_name, overriding.eq_def (ms ++ [m]), List.reverse_append,
        List.reverse_singleton, List.singleton_append, List.find?_cons]
      by_cases h : old.name = m.name
      · simp [h]
      · rw [if_neg h, beq_false_of_ne (Ne.symm h), overriding]

/-- With distinct names the override of a method is the one that is listed. -/
theorem overriding_of_mem {ms : List (NamedSlot F)} (hnd : (ms.map (·.name)).Nodup)
    {m old : NamedSlot F} (hm : m ∈ ms) (hname : m.name = old.name) : overriding ms old = m := by
  have hrev : (ms.reverse.map (·.name)).Nodup := by rwa [List.map_reverse, List.nodup_reverse]
  rw [overriding, (find?_key_eq_some_iff hrev).mpr ⟨List.mem_reverse.mpr hm, hname⟩]
  rfl

theorem overriding_of_not_mem {ms : List (NamedSlot F)} {old : NamedSlot F}
    (h : old.name ∉ ms.map (·.name)) : overriding ms old = old := by
  rw [overriding, find?_key_eq_none_iff.mpr]
  · rfl
  · rwa [List.map_reverse, List.mem_reverse]

/-- **When a specification fits the table of its parent, and which table it makes.** -/
theorem ClassSpec.table_eq_ok_iff {spec : ClassSpec F} {parent table : List (NamedSlot F)} :
    spec.table parent = .ok table ↔
      (∀ n ∈ spec.inherited, n ∈ parent.map (·.name)) ∧
        (∀ m ∈ spec.overridden, m.name ∈ parent.map (·.name)) ∧
          (∀ m ∈ parent, m.name ∈ spec.inherited ∨ m.name ∈ spec.overridden.map (·.name)) ∧
            FreshNames (fun m : NamedSlot F => m.name) (parent.map (·.name)) spec.novel ∧
              table = parent.map (overriding spec.overridden) ++ spec.novel := by
  have hnames : (parent.map (overriding spec.overridden)).map (·.name) = parent.map (·.name) := by
    rw [List.map_map]
    exact List.map_congr_left fun old _ => overriding_name _ old
  have hlisted : parent.find? (fun m => !(spec.inherited.contains m.name ||
      (spec.overridden.map (·.name)).contains m.name)) = none ↔
      ∀ m ∈ parent, m.name ∈ spec.inherited ∨ m.name ∈ spec.overridden.map (·.name) := by
    rw [List.find?_eq_none]
    refine forall₂_congr fun m _ => ?_
    rw [Bool.not_eq_true', Bool.not_eq_false, Bool.or_eq_true, List.contains_iff_mem,
      List.contains_iff_mem]
  rw [ClassSpec.table, unit_bind_eq_ok_iff, unit_bind_eq_ok_iff, checkListed_eq_ok_iff,
    checkListed_eq_ok_iff, List.forall_mem_map, ← hlisted]
  refine and_congr_right fun _ => and_congr_right fun _ => ?_
  cases parent.find? (fun m => !(spec.inherited.contains m.name ||
      (spec.overridden.map (·.name)).contains m.name)) with
  | some m => simp
  | none =>
      dsimp only
      rw [appendNovel_eq_ok_iff, foldl_override, hnames]
      simp

/-! ## Chains of parents -/

/-- The class of the given name and its ancestors, nearest first, among classes listed newest
first. -/
def chainFrom : Option String → List (LoadedClass F) → List (LoadedClass F)
  | none, _ => []
  | some _, [] => []
  | some name, c :: cs =>
    if c.name = name then c :: chainFrom c.parent cs else chainFrom (some name) cs

/-- The walk to a class of another parcel looks along the chain of parents. -/
theorem foreignAncestor?_eq_find? (parcel : String) :
    ∀ (name : Option String) (cs : List (LoadedClass F)),
      foreignAncestor? parcel name cs = (chainFrom name cs).find? (·.parcel != parcel)
  | none, cs => by cases cs <;> rfl
  | some _, [] => rfl
  | some name, c :: cs => by
      rw [foreignAncestor?, chainFrom]
      by_cases h : c.name = name
      · rw [if_pos h, if_pos h, List.find?_cons, foreignAncestor?_eq_find? parcel c.parent cs]
        by_cases hp : c.parcel = parcel
        · simp [hp]
        · have hne : (c.parcel != parcel) = true := bne_iff_ne.mpr hp
          rw [if_pos hp, hne]
      · rw [if_neg h, if_neg h, foreignAncestor?_eq_find? parcel (some name) cs]

/-! ## The loaded class -/

namespace Registry

variable (r : Registry F)

/-- What loading makes of a specification, given the loaded parent and the table. -/
def loadedOf (spec : ClassSpec F) (parent : Option (LoadedClass F)) (table : List (NamedSlot F)) :
    LoadedClass F :=
  let foreign := foreignAncestor? spec.parcel spec.parent r.classes.reverse
  let offset := (foreign.map fun a => roundUp a.allocSize spec.ivarsAlign).getD 0
  let align := max ((parent.map (·.align)).getD 1) spec.ivarsAlign
  { name := spec.name
    parcel := spec.parcel
    parent := spec.parent
    table
    ivarsOffset := offset
    allocSize := roundUp (offset + spec.ivarsSize) align
    align }

variable {r}

/-- **When a class can be loaded, and what is then loaded.** -/
theorem register_eq_ok_iff {spec : ClassSpec F} {r' : Registry F} :
    r.register spec = .ok r' ↔ r.class? spec.name = none ∧
      ∃ parent table, r.parentOf spec = .ok parent ∧
        spec.table ((parent.map (·.table)).getD []) = .ok table ∧
          r' = ⟨r.classes ++ [r.loadedOf spec parent table]⟩ := by
  rw [register]
  cases hname : r.class? spec.name with
  | some c =>
      constructor
      · intro h
        exact nomatch h
      · rintro ⟨⟨⟩, _⟩
  | none =>
      show (r.parentOf spec >>= _) = _ ↔ _
      simp only [bind_eq_ok_iff, true_and]
      constructor
      · rintro ⟨parent, hp, table, ht, ⟨⟩⟩
        exact ⟨parent, table, hp, ht, rfl⟩
      · rintro ⟨parent, table, hp, ht, rfl⟩
        exact ⟨parent, hp, table, ht, rfl⟩

end Registry

end ClassTables
