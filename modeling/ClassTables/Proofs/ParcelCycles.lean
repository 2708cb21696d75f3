import ClassTables.Proofs.Agreement
import ClassTables.Proofs.Cycles
/-!
# Parcels of a hierarchy start unless they inherit in a cycle

Of all the faults that a runtime knows, a hierarchy can only meet one.  Its parcels name each other,
so none is unknown, and its classes are never refused (`LoadRun.accepts`).  What is left is that
parcels inherit from each other (`LoadRun.ok_or_cyclic`, `StartRun.ok_or_cyclic`).

A runtime sees inheritance between names, and a hierarchy between parcels.  Registered parcels have
the same steps (`Holds.inherits_iff`), so ways and cycles are the same too.

Main statement: `parcels_start_unless_cyclic`.
-/

namespace ClassTables

open Relation

/-! ## Ways along a map -/

section Image

variable {α β : Type} {R : α → α → Prop} {S : β → β → Prop} {f : α → β} {P : α → Prop} {a : α}
  {y : β} (hP : ∀ a b, P a → R a b → P b) (hS : ∀ a y, P a → (S (f a) y ↔ ∃ b, R a b ∧ f b = y))

include hP hS

/-- Where the steps from an image are the images of steps, so are the ways. -/
theorem reflTransGen_image_iff (ha : P a) :
    ReflTransGen S (f a) y ↔ ∃ b, P b ∧ ReflTransGen R a b ∧ f b = y := by
  constructor
  · intro h
    induction h with
    | refl => exact ⟨a, ha, .refl, rfl⟩
    | tail _ hstep ih =>
        obtain ⟨b, hb, hab, rfl⟩ := ih
        obtain ⟨c, hbc, rfl⟩ := (hS b _ hb).mp hstep
        exact ⟨c, hP b c hb hbc, hab.tail hbc, rfl⟩
  · rintro ⟨b, -, hab, rfl⟩
    induction hab using ReflTransGen.head_induction_on with
    | refl => exact .refl
    | head hac _ ih => exact .head ((hS _ _ ha).mpr ⟨_, hac, rfl⟩) (ih (hP _ _ ha hac))

theorem transGen_image_iff (ha : P a) :
    TransGen S (f a) y ↔ ∃ b, P b ∧ TransGen R a b ∧ f b = y := by
  constructor
  · intro h
    obtain ⟨z, haz, hzy⟩ := TransGen.head'_iff.mp h
    obtain ⟨c, hac, rfl⟩ := (hS a z ha).mp haz
    obtain ⟨b, hb, hcb, rfl⟩ := (reflTransGen_image_iff hP hS (hP a c ha hac)).mp hzy
    exact ⟨b, hb, .head' hac hcb, rfl⟩
  · rintro ⟨b, hb, hab, rfl⟩
    obtain ⟨c, hac, hcb⟩ := TransGen.head'_iff.mp hab
    have hway := (reflTransGen_image_iff hP hS (hP a c ha hac)).mpr ⟨b, hb, hcb, rfl⟩
    exact .head' ((hS a _ ha).mpr ⟨c, hac, rfl⟩) hway

end Image

/-! ## Inheritance between the parcels of a hierarchy -/

namespace Hierarchy

variable (h : Hierarchy)

/-- The first parcel inherits from the second one. -/
def Inherits (p q : Parcel) : Prop := q ∈ h.inheritedParcels p

/-- The second parcel is reached from the first one along inheritance. -/
def RestsOn : Parcel → Parcel → Prop := ReflTransGen h.Inherits

/-- The parcel inherits from itself, through others. -/
def OnCycle (p : Parcel) : Prop := TransGen h.Inherits p p

/-- The second parcel is reached from the first one along prerequisites. -/
def Reaches : Parcel → Parcel → Prop := ReflTransGen fun p q => q ∈ h.prereqsOf p

variable {h} {d : Declarations} {p : Parcel}

/-- Parcels that can be ranked do not inherit in a cycle. -/
theorem not_onCycle_of_rank (hb : d.build = .ok h) (rank : Parcel → Nat)
    (hrank : ∀ p ∈ h.parcels, ∀ q ∈ h.inheritedParcels p, rank q < rank p) : ¬ h.OnCycle p := by
  have hlt : ∀ {p q : Parcel}, p ∈ h.parcels → TransGen h.Inherits p q →
      q ∈ h.parcels ∧ rank q < rank p := by
    intro p q hp hpq
    induction hpq with
    | single hstep => exact ⟨inheritedParcels_subset hb hstep, hrank _ hp _ hstep⟩
    | tail _ hstep ih =>
        exact ⟨inheritedParcels_subset hb hstep, (hrank _ ih.1 _ hstep).trans ih.2⟩
  intro hcycle
  obtain ⟨k, -, hkp⟩ := TransGen.tail'_iff.mp hcycle
  exact Nat.lt_irrefl _ (hlt (inheritedParcels_subset hb hkp) hcycle).2

end Hierarchy

namespace Runtime

variable {d : Declarations} {h : Hierarchy} {target : Target} {r r' : Runtime String}
  {n m : String} {p q : Parcel} {ns : List String} {past evs : List BootEvent}
  {res : Except BootstrapError Unit}

/-! ### Names and parcels -/

theorem Holds.known_iff (hr : Holds h target r) : r.Known n ↔ ∃ p ∈ h.parcels, p.name = n := by
  constructor
  · intro hn
    rw [Known, Runtime.spec?, Option.isSome_map, parcel?_isSome_iff] at hn
    exact hr.only n hn
  · rintro ⟨p, hp, rfl⟩
    obtain ⟨classes, hasInit, -, hspec⟩ := hr.spec? p hp
    rw [Known, hspec]
    rfl

section Built

variable (hb : d.build = .ok h) (hr : Holds h target r)

include hb hr

/-- A registered parcel inherits from what the parcel of the hierarchy inherits from. -/
theorem Holds.inherits_iff (hp : p ∈ h.parcels) :
    r.Inherits p.name n ↔ ∃ q, h.Inherits p q ∧ q.name = n := by
  rw [Inherits, hr.inheritedOf_eq hp, List.mem_map]
  refine ⟨fun hn => hn.1, fun hn => ⟨hn, ?_⟩⟩
  obtain ⟨q, hq, rfl⟩ := hn
  exact hr.known_iff.mpr ⟨q, inheritedParcels_subset hb hq, rfl⟩

theorem Holds.restsOn_iff (hp : p ∈ h.parcels) :
    r.RestsOn p.name n ↔ ∃ q ∈ h.parcels, h.RestsOn p q ∧ q.name = n :=
  reflTransGen_image_iff (fun _ _ _ hq => inheritedParcels_subset hb hq)
    (fun _ _ hp => hr.inherits_iff hb hp) hp

theorem Holds.onCycle_iff (hp : p ∈ h.parcels) : r.OnCycle p.name ↔ h.OnCycle p := by
  obtain ⟨defs, hres, -, -⟩ := exists_resolved_of_build hb
  have hway : r.OnCycle p.name ↔ ∃ q ∈ h.parcels, TransGen h.Inherits p q ∧ q.name = p.name :=
    transGen_image_iff (fun _ _ _ hq => inheritedParcels_subset hb hq)
      (fun _ _ hp => hr.inherits_iff hb hp) hp
  rw [hway]
  constructor
  · rintro ⟨q, hq, hpq, hname⟩
    rwa [eq_of_name_eq hres.parcelNames hq hp hname] at hpq
  · exact fun hcycle => ⟨p, hp, hcycle, rfl⟩

/-- What rests on a cycle between names rests on one between parcels. -/
theorem Holds.exists_onCycle (hp : p ∈ h.parcels) (hpath : r.RestsOn p.name n)
    (hn : r.OnCycle n) : ∃ q, q.name = n ∧ h.RestsOn p q ∧ h.OnCycle q := by
  obtain ⟨q, hq, hpq, rfl⟩ := (hr.restsOn_iff hb hp).mp hpath
  exact ⟨q, rfl, hpq, (hr.onCycle_iff hb hq).mp hn⟩

omit hb in
theorem Holds.reaches_iff (hp : p ∈ h.parcels) :
    r.Reaches p.name n ↔ ∃ q ∈ h.parcels, h.Reaches p q ∧ q.name = n := by
  refine reflTransGen_image_iff (fun _ _ _ hq => prereqsOf_subset hq) (fun k y hk => ?_) hp
  rw [hr.prereqsOf_eq hk, List.mem_map]

/-! ## The only fault -/

/-- What a parcel of the hierarchy inherits from is registered. -/
theorem Holds.known_inherited {e : ParcelEntry String} (he : r.parcel? n = some e) :
    ∀ m ∈ e.spec.inherited, r.Known m := by
  obtain ⟨p, hp, rfl⟩ := hr.known_iff.mp (known_of_parcel? he)
  rw [← inheritedOf_of_parcel? he, hr.inheritedOf_eq hp, List.forall_mem_map]
  exact fun q hq => hr.known_iff.mpr ⟨q, inheritedParcels_subset hb hq, rfl⟩

omit hb in
theorem Holds.known_prereq {e : ParcelEntry String} (he : r.parcel? n = some e) :
    ∀ m ∈ e.spec.prereqs, r.Known m := by
  obtain ⟨p, hp, rfl⟩ := hr.known_iff.mp (known_of_parcel? he)
  rw [← prereqsOf_of_parcel? he, hr.prereqsOf_eq hp, List.forall_mem_map]
  exact fun q hq => hr.known_iff.mpr ⟨q, prereqsOf_subset hq, rfl⟩

end Built

/-- **Loading parcels of a hierarchy succeeds or reports a cycle.** -/
theorem LoadRun.ok_or_cyclic (hb : d.build = .ok h) (hrun : LoadRun ns r evs r' res)
    (hr : Holds h target r) (hl : Ledger past r) (hns : ∀ n ∈ ns, r.Known n) :
    res = .ok () ∨ ∃ m, res = .error (.cyclicInheritance m) := by
  induction hrun generalizing past with
  | nil => exact Or.inl rfl
  | unknown hp => exact absurd hp (hns _ List.mem_cons_self).parcel?_ne_none
  | cyclic _ _ => exact Or.inr ⟨_, rfl⟩
  | known _ _ _ ih => exact ih hr hl fun n hn => hns n (List.mem_cons_of_mem _ hn)
  | failed hp hs _ ih =>
      refine ih (hr.of_specs (specs_setState _)) (hl.mark hp hs) ?_
      rw [known_of_specs (specs_setState _)]
      exact hr.known_inherited hb hp
  | refused hp hs hsub hreg _ =>
      -- this does not happen: what a hierarchy holds is not refused
      obtain ⟨registry, hok⟩ := hsub.accepts hb hr hl hp hs
      rw [hreg] at hok
      cases hok
  | loaded hp hs hsub hreg _ _ ih' =>
      have hone := LoadRun.loaded hp hs hsub hreg .nil
      refine ih' (hr.of_specs hone.specs) (hone.ledger hl) ?_
      rw [known_of_specs hone.specs]
      exact fun n hn => hns n (List.mem_cons_of_mem _ hn)

/-- **Starting parcels of a hierarchy succeeds or reports a cycle.** -/
theorem StartRun.ok_or_cyclic (hb : d.build = .ok h) (hrun : StartRun ns r evs r' res)
    (hr : Holds h target r) (hl : Ledger past r) (hns : ∀ n ∈ ns, r.Known n) :
    res = .ok () ∨ ∃ m, res = .error (.cyclicInheritance m) := by
  induction hrun generalizing past with
  | nil => exact Or.inl rfl
  | unknown hp => exact absurd hp (hns _ List.mem_cons_self).parcel?_ne_none
  | known _ _ _ ih => exact ih hr hl fun n hn => hns n (List.mem_cons_of_mem _ hn)
  | notLoaded _ _ hload =>
      exact hload.ok_or_cyclic hb hr hl (List.forall_mem_singleton.mpr (hns _ List.mem_cons_self))
  | @failed n _ _ r₁ _ _ _ _ _ hp _ hload _ ih =>
      have hspecs := (specs_setState (r := r₁) (n := n) .parcelDone).trans hload.specs
      have hl' := (hload.ledger hl).markDone (hload.loaded_of_ok rfl n List.mem_cons_self)
      refine ih (hr.of_specs hspecs) hl' ?_
      rw [known_of_specs hspecs]
      exact hr.known_prereq hp
  | started hp hs hload hsub _ _ ih' =>
      have hone := StartRun.started hp hs hload hsub .nil
      refine ih' (hr.of_specs hone.specs) (hone.ledger hl) ?_
      rw [known_of_specs hone.specs]
      exact fun n hn => hns n (List.mem_cons_of_mem _ hn)

/-! ## Calls from outside -/

section Calls

variable (hb : d.build = .ok h) (hr : Holds h target r) (ho : Orderly past r) (hp : p ∈ h.parcels)
  {e : BootstrapError}

include hb hr ho hp

theorem Orderly.inherit_error (herr : (bootstrapInheritance p.name r).2 = .error e) :
    ∃ q, e = .cyclicInheritance q.name ∧ h.RestsOn p q ∧ h.OnCycle q := by
  obtain ⟨evs, hrun⟩ := exists_loadRun p.name r
  have hknown : ∀ n ∈ [p.name], r.Known n :=
    List.forall_mem_singleton.mpr (hr.known_iff.mpr ⟨p, hp, rfl⟩)
  rcases hrun.ok_or_cyclic hb hr ho.ledger hknown with hok | ⟨m, hm⟩
  · rw [hok] at herr
    cases herr
  · rw [hm] at herr
    cases herr
    obtain ⟨n, hn, hpath, hcycle⟩ := hrun.exists_onCycle ho.settled hm
    rw [List.mem_singleton.mp hn] at hpath
    obtain ⟨q, rfl, hpq, hq⟩ := hr.exists_onCycle hb hp hpath hcycle
    exact ⟨q, rfl, hpq, hq⟩

theorem Orderly.start_error (herr : (bootstrapParcel p.name r).2 = .error e) :
    ∃ k q, e = .cyclicInheritance q.name ∧ h.Reaches p k ∧ h.RestsOn k q ∧ h.OnCycle q := by
  obtain ⟨evs, hrun⟩ := exists_startRun p.name r
  have hknown : ∀ n ∈ [p.name], r.Known n :=
    List.forall_mem_singleton.mpr (hr.known_iff.mpr ⟨p, hp, rfl⟩)
  rcases hrun.ok_or_cyclic hb hr ho.ledger hknown with hok | ⟨m, hm⟩
  · rw [hok] at herr
    cases herr
  · rw [hm] at herr
    cases herr
    obtain ⟨n, hn, x, hreach, hpath, hcycle⟩ := hrun.exists_onCycle ho.settled hm
    rw [List.mem_singleton.mp hn] at hreach
    obtain ⟨k, hk, hpk, rfl⟩ := (hr.reaches_iff hp).mp hreach
    obtain ⟨q, rfl, hkq, hq⟩ := hr.exists_onCycle hb hk hpath hcycle
    exact ⟨k, q, rfl, hpk, hkq, hq⟩

/-- Loading succeeds exactly where no cycle is reached. -/
theorem Orderly.inherit_ok_iff :
    (bootstrapInheritance p.name r).2 = .ok () ↔ ∀ q, h.RestsOn p q → ¬ h.OnCycle q := by
  constructor
  · intro hok q hpq hcycle
    have hq : q ∈ h.parcels := by
      rcases hpq.cases_tail with heq | ⟨k, -, hkq⟩
      · exact heq ▸ hp
      · exact inheritedParcels_subset hb hkq
    have hpath : r.RestsOn p.name q.name := (hr.restsOn_iff hb hp).mpr ⟨q, hq, hpq, rfl⟩
    exact ho.ledger.not_onCycle_of_ok hok hpath ((hr.onCycle_iff hb hq).mpr hcycle)
  · intro hacyc
    cases hres : (bootstrapInheritance p.name r).2 with
    | ok u => rfl
    | error e =>
        obtain ⟨q, -, hpq, hcycle⟩ := ho.inherit_error hb hr hp hres
        exact absurd hcycle (hacyc q hpq)

theorem Orderly.start_ok (hacyc : ∀ k q, h.Reaches p k → h.RestsOn k q → ¬ h.OnCycle q) :
    (bootstrapParcel p.name r).2 = .ok () := by
  cases hres : (bootstrapParcel p.name r).2 with
  | ok u => rfl
  | error e =>
      obtain ⟨k, q, -, hpk, hkq, hcycle⟩ := ho.start_error hb hr hp hres
      exact absurd hcycle (hacyc k q hpk hkq)

end Calls

end Runtime

open ClassTables.Runtime

/-- **The parcels of a hierarchy start unless they inherit in a cycle.**  Let any calls have been
made of a runtime in which the parcels of a hierarchy are registered, in whatever order.  Then a
parcel's classes load exactly if no cycle of inheritance is reached from it, and the parcel starts if
none is reached from what it needs.  A call that fails reports a parcel on such a cycle, and nothing
else ever goes wrong. -/
theorem parcels_start_unless_cyclic {d : Declarations} {h : Hierarchy} {target : Target}
    {specs : List (ParcelSpec String)} {calls : List (Call String)} {p : Parcel}
    (hb : d.build = .ok h) (hs : h.parcels.mapM (h.runtimeParcel · target) = .ok specs)
    (hcalls : (after calls).specs.Perm specs) (hp : p ∈ h.parcels) :
    ((bootstrapInheritance p.name (after calls)).2 = .ok () ↔
      ∀ q, h.RestsOn p q → ¬ h.OnCycle q) ∧
    ((∀ k q, h.Reaches p k → h.RestsOn k q → ¬ h.OnCycle q) →
      (bootstrapParcel p.name (after calls)).2 = .ok ()) ∧
    (∀ e, (bootstrapInheritance p.name (after calls)).2 = .error e →
      ∃ q, e = .cyclicInheritance q.name ∧ h.RestsOn p q ∧ h.OnCycle q) ∧
    ∀ e, (bootstrapParcel p.name (after calls)).2 = .error e →
      ∃ k q, e = .cyclicInheritance q.name ∧ h.Reaches p k ∧ h.RestsOn k q ∧ h.OnCycle q := by
  have hr : Holds h target (after calls) := holds_of_perm hb hs hcalls
  obtain ⟨past, ho⟩ := orderly_after calls
  refine ⟨ho.inherit_ok_iff hb hr hp, ho.start_ok hb hr hp, ?_, ?_⟩
  · exact fun e herr => ho.inherit_error hb hr hp herr
  · exact fun e herr => ho.start_error hb hr hp herr

def tangledHierarchy : Hierarchy := tangled.build.toOption.getD ⟨[], [], []⟩

theorem tangled_build : tangled.build = .ok tangledHierarchy := by decide +kernel

def tangledParcels : List (ParcelSpec String) :=
  (tangledHierarchy.parcels.mapM (tangledHierarchy.runtimeParcel · .lp64)).toOption.getD []

/-- Registered last to first, `Right` has been asked for in vain. -/
def tangledCalls : List (Call String) := tangledParcels.reverse.map .register ++ [.start "Right"]

/-- The classes of `Loose` load; `Left` is reported, as it stands on a cycle. -/
theorem tangled_starts : ∃ loose ∈ tangledHierarchy.parcels, ∃ left ∈ tangledHierarchy.parcels,
    (bootstrapInheritance loose.name (after tangledCalls)).2 = .ok () ∧
      (∀ q, tangledHierarchy.RestsOn loose q → ¬ tangledHierarchy.OnCycle q) ∧
        (bootstrapParcel left.name (after tangledCalls)).2 = .error (.cyclicInheritance "Left") ∧
          ∃ q, q.name = "Left" ∧ tangledHierarchy.OnCycle q := by
  have hspecs : tangledHierarchy.parcels.mapM (tangledHierarchy.runtimeParcel · .lp64) =
      .ok tangledParcels := by decide +kernel
  have hreversed : (after tangledCalls).specs = tangledParcels.reverse := by decide +kernel
  have hcalls : (after tangledCalls).specs.Perm tangledParcels := by
    rw [hreversed]
    exact List.reverse_perm _
  obtain ⟨loose, hloose, hname⟩ : ∃ p ∈ tangledHierarchy.parcels, p.name = "Loose" := by
    decide +kernel
  obtain ⟨left, hleft, hname'⟩ : ∃ p ∈ tangledHierarchy.parcels, p.name = "Left" := by
    decide +kernel
  obtain ⟨hload, -, -, -⟩ := parcels_start_unless_cyclic tangled_build hspecs hcalls hloose
  obtain ⟨-, -, -, hfault⟩ := parcels_start_unless_cyclic tangled_build hspecs hcalls hleft
  have hok : (bootstrapInheritance loose.name (after tangledCalls)).2 = .ok () := by
    rw [hname]
    decide +kernel
  have herr : (bootstrapParcel left.name (after tangledCalls)).2 =
      .error (.cyclicInheritance "Left") := by
    rw [hname']
    decide +kernel
  obtain ⟨k, q, hq, -, -, hcycle⟩ := hfault _ herr
  rw [BootstrapError.cyclicInheritance.injEq] at hq
  exact ⟨loose, hloose, left, hleft, hok, hload.mp hok, herr, q, hq.symm, hcycle⟩

end ClassTables
