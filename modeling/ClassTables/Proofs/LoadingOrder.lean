import ClassTables.Proofs.DirectCalls
import ClassTables.Proofs.ParcelCycles
import ClassTables.Proofs.StableSlots
/-!
# The order of loading does not matter

The parcels of a hierarchy may be registered in any order, and then loaded and started by any calls.
Classes stand at other places in the registry then, and so do their parents.  But a class is made
from its specification and its ancestors alone, so whatever the order, it becomes what its lineage
says (`Orderly.class?_eq_some_iff`).

Main statement: `loading_order_irrelevant`, for hierarchies whose parcels do not inherit in a cycle.
What can be seen of a class is a `ClassView`, which has names in it and no places.
-/

namespace ClassTables

/-! ## What can be seen of a class -/

/-- A loaded class, apart from its place and that of its parent. -/
structure ClassView (F : Type) where
  parcel : String
  parent : Option String
  vtable : List (Slot F)
  slotOf? : String → Option Nat
  ivarsOffset : Nat
  allocSize : Nat
  align : Nat

section Views

variable {F : Type}

def ClassStore.view? (s : ClassStore F) (n : String) : Option (ClassView F) :=
  (s.class? n).map fun c =>
    { parcel := c.parcel
      parent := (s.parentOf? c).map (·.name)
      vtable := c.vtable
      slotOf? := c.slotOf?
      ivarsOffset := c.ivarsOffset
      allocSize := c.allocSize
      align := c.align }

def LoadedClass.view (c : LoadedClass F) : ClassView F :=
  { parcel := c.parcel
    parent := c.parent
    vtable := c.vtable
    slotOf? := c.slotOf?
    ivarsOffset := c.ivarsOffset
    allocSize := c.allocSize
    align := c.align }

namespace Registry

variable {r : Registry F} {c : LoadedClass F} {n : String}

theorem Sound.parent?_name (h : r.Sound) (hc : c ∈ r.classes) :
    (r.parent? c).map (·.name) = c.parent := by
  cases hp : c.parent with
  | none =>
      rw [parent?, hp]
      rfl
  | some n =>
      obtain ⟨a, ha⟩ := Option.ne_none_iff_exists'.mp fun hnone =>
        class?_eq_none_iff.mp hnone (h.parents c hc n hp)
      have hname : a.name = n := by simpa using List.find?_some ha
      rw [parent?, hp, Option.bind_some, ha, Option.map_some, hname]

/-- **Places are not seen.** -/
theorem Sound.stored_view? (h : r.Sound) (n : String) :
    r.stored.view? n = (r.class? n).map (·.view) := by
  unfold ClassStore.view?
  rw [stored_class? h.names]
  cases hc : r.class? n with
  | none => rfl
  | some c =>
      have hmem : c ∈ r.classes := List.mem_of_find?_eq_some hc
      have hparent : (r.stored.parentOf? (c.stored r.names)).map (·.name) = c.parent := by
        rw [h.stored_parentOf? hmem, Option.map_map]
        exact h.parent?_name hmem
      have hslots : (c.stored r.names).slotOf? = c.slotOf? := by
        ext1 m
        exact stored_slotOf? (h.tables c hmem) m
      rw [Option.map_some, Option.map_some, Option.map_some, hparent, hslots]
      rfl

end Registry

end Views

/-! ## Runs in which every call succeeds -/

namespace Runtime

/-- Every call of the run succeeds. -/
def AllSucceed {F : Type} (calls : List (Call F)) : Prop :=
  ∀ before c rest, calls = before ++ c :: rest → (c.run (after before)).2 = .ok ()

section Runs

variable {F : Type} {r : Runtime F} {n : String} {calls : List (Call F)} {c : Call F}
  {past : List BootEvent}

theorem allSucceed_nil : AllSucceed ([] : List (Call F)) := by
  intro before c rest h
  simp at h

theorem AllSucceed.concat (h : AllSucceed calls) (hc : (c.run (after calls)).2 = .ok ()) :
    AllSucceed (calls ++ [c]) := by
  intro before e rest heq
  -- the call that is looked at is the last one, or one of those before
  rcases List.eq_nil_or_concat rest with rfl | ⟨rest, e', rfl⟩
  · obtain ⟨rfl, he⟩ := List.append_inj' heq rfl
    simp only [List.cons.injEq, and_true] at he
    exact he ▸ hc
  · rw [List.concat_eq_append, ← List.cons_append, ← List.append_assoc] at heq
    exact h before e rest (List.append_inj' heq rfl).1

/-- New parcels are registered. -/
theorem allSucceed_register {ss : List (ParcelSpec F)} (hnd : (ss.map (·.name)).Nodup) :
    AllSucceed (ss.map .register) := by
  induction ss using List.reverseRecOn with
  | nil => exact allSucceed_nil
  | append_singleton ss s ih =>
      rw [List.map_append, List.map_singleton, ← List.concat_eq_append, List.nodup_concat] at hnd
      rw [List.map_append, List.map_singleton]
      apply (ih hnd.2).concat
      have hnew : ¬ ((after (ss.map .register)).parcel? s.name).isSome = true := by
        rw [parcel?_isSome_iff, specs_after_register hnd.2]
        exact hnd.1
      rw [Call.run, registerParcel, if_neg hnew]

/-- What is loaded stays loaded, also when a call fails. -/
theorem Orderly.loaded_run (h : Orderly past r) (c : Call F) (hn : r.Loaded n) :
    (c.run r).1.Loaded n := by
  obtain ⟨evs, h'⟩ := h.run c
  rw [h.ledger.loaded] at hn
  rw [h'.ledger.loaded, loadedBy_append]
  exact List.mem_append_left _ hn

end Runs

/-! ### Classes of a hierarchy -/

/-- **When all parcels are loaded, the registry holds the classes that have instances,** each as its
lineage says. -/
theorem Orderly.class?_eq_some_iff {d : Declarations} {h : Hierarchy} {target : Target}
    {r : Runtime String} {past : List BootEvent} {n : String} {l : LoadedClass String}
    (hb : d.build = .ok h) (hr : Holds h target r) (ho : Orderly past r)
    (hall : ∀ p ∈ h.parcels, r.Loaded p.name) :
    r.registry.class? n = some l ↔ ∃ c ∈ h.liveClasses, c.name = n ∧ c.loaded target = l := by
  have hknown : ∀ k ∈ loadedBy past, k ∈ r.specs.map (·.name) := by
    intro k hk
    rw [← parcel?_isSome_iff]
    exact ((ho.ledger.loaded k).mpr hk).parcel?_isSome
  have hboot := hr.bootstrap hb ho.ledger.once ho.ledger.order hknown
  rw [ho.ledger.registry, Except.ok.injEq] at hboot
  have hnd : (((loadedBy past).flatMap h.liveIn).map (·.loaded target)).map (·.name) |>.Nodup := by
    simpa [Function.comp_def] using liveIn_names_nodup hb ho.ledger.once
  have hmem : ∀ c, c ∈ (loadedBy past).flatMap h.liveIn ↔ c ∈ h.liveClasses := by
    intro c
    simp only [List.mem_flatMap, Hierarchy.mem_liveIn]
    constructor
    · rintro ⟨k, -, hc, -⟩
      exact hc
    · intro hc
      have hp := parcel_mem_of_build hb (mem_classes_of_live hc)
      exact ⟨c.parcel.name, (ho.ledger.loaded _).mp (hall _ hp), hc, rfl⟩
  rw [hboot, Registry.class?, find?_key_eq_some_iff hnd, List.mem_map]
  simp only [hmem]
  constructor
  · rintro ⟨⟨c, hc, rfl⟩, rfl⟩
    exact ⟨c, hc, by simp, rfl⟩
  · rintro ⟨c, hc, rfl, rfl⟩
    exact ⟨⟨c, hc, rfl⟩, by simp⟩

end Runtime

open ClassTables.Runtime

/-! ## Calls on the parcels of a hierarchy -/

namespace BootCall

/-- The call as one of all that may be asked of a runtime. -/
def toCall : BootCall → Call String
  | inherit p => .inherit p.name
  | start p => .start p.name

variable {r : Runtime String}

theorem specs_run (c : BootCall) (r : Runtime String) : (c.toCall.run r).1.specs = r.specs := by
  cases c with
  | inherit p =>
      obtain ⟨evs, hrun⟩ := exists_loadRun p.name r
      exact hrun.specs
  | start p =>
      obtain ⟨evs, hrun⟩ := exists_startRun p.name r
      exact hrun.specs

/-- A call that succeeds loads the parcel that it is about. -/
theorem loaded_of_ok {c : BootCall} (h : (c.toCall.run r).2 = .ok ()) :
    (c.toCall.run r).1.Loaded c.parcel.name := by
  cases c with
  | inherit p =>
      obtain ⟨evs, hrun⟩ := exists_loadRun p.name r
      exact hrun.loaded_of_ok h p.name List.mem_cons_self
  | start p =>
      obtain ⟨-, hcomp⟩ := starts_bootstrapParcel p.name r
      exact Or.inr ((hcomp h).all p.name List.mem_cons_self)

/-- Where parcels do not inherit in a cycle, the call succeeds. -/
theorem ok_of_not_onCycle {d : Declarations} {h : Hierarchy} {target : Target}
    {past : List BootEvent} (hb : d.build = .ok h) (hr : Holds h target r) (ho : Orderly past r)
    {c : BootCall} (hc : c.parcel ∈ h.parcels) (hacyc : ∀ p, ¬ h.OnCycle p) :
    (c.toCall.run r).2 = .ok () := by
  cases c with
  | inherit p => exact (ho.inherit_ok_iff hb hr hc).mpr fun q _ => hacyc q
  | start p => exact ho.start_ok hb hr hc fun _ q _ _ => hacyc q

end BootCall

/-- The calls leave the parcels as they were registered. -/
theorem specs_after_calls {ss : List (ParcelSpec String)} (hnd : (ss.map (·.name)).Nodup)
    (cs : List BootCall) : (after (ss.map .register ++ cs.map (·.toCall))).specs = ss := by
  induction cs using List.reverseRecOn with
  | nil => rw [List.map_nil, List.append_nil, specs_after_register hnd]
  | append_singleton cs c ih =>
      rw [List.map_append, List.map_singleton, ← List.append_assoc, after_append_singleton,
        BootCall.specs_run, ih]

/-! ## Any order -/

/-- A way to load a hierarchy: an order in which its parcels are registered, and then calls, in which
every parcel is asked for. -/
structure LoadingOrder (h : Hierarchy) (specs : List (ParcelSpec String)) where
  parcels : List (ParcelSpec String)
  perm : parcels.Perm specs
  bootCalls : List BootCall
  own : ∀ c ∈ bootCalls, c.parcel ∈ h.parcels
  all : ∀ p ∈ h.parcels, ∃ c ∈ bootCalls, c.parcel = p

namespace LoadingOrder

variable {d : Declarations} {h : Hierarchy} {target : Target} {specs : List (ParcelSpec String)}

/-- All calls, one after the other. -/
def calls (o : LoadingOrder h specs) : List (Call String) :=
  o.parcels.map .register ++ o.bootCalls.map (·.toCall)

variable (hb : d.build = .ok h) (hs : h.parcels.mapM (h.runtimeParcel · target) = .ok specs)
  (o : LoadingOrder h specs)

include hb hs

theorem names_nodup : (o.parcels.map (·.name)).Nodup :=
  (o.perm.map _).nodup_iff.mpr (runtimeParcel_names_nodup hb hs)

/-- The parcels of the hierarchy are registered before the first call and after each one. -/
theorem holds (cs : List BootCall) :
    Holds h target (after (o.parcels.map .register ++ cs.map (·.toCall))) := by
  apply holds_of_perm hb hs
  rw [specs_after_calls (o.names_nodup hb hs)]
  exact o.perm

variable (hacyc : ∀ p, ¬ h.OnCycle p)

include hacyc

/-- **Every call succeeds,** and loads the parcel that it is about. -/
theorem succeeds_and_loads {cs : List BootCall} (hcs : ∀ c ∈ cs, c.parcel ∈ h.parcels) :
    AllSucceed (o.parcels.map .register ++ cs.map (·.toCall)) ∧
      ∀ c ∈ cs, (after (o.parcels.map .register ++ cs.map (·.toCall))).Loaded c.parcel.name := by
  induction cs using List.reverseRecOn with
  | nil =>
      rw [List.map_nil, List.append_nil]
      exact ⟨allSucceed_register (o.names_nodup hb hs), List.forall_mem_nil _⟩
  | append_singleton cs c ih =>
      rw [List.forall_mem_append, List.forall_mem_singleton] at hcs
      obtain ⟨hsucceed, hloaded⟩ := ih hcs.1
      obtain ⟨past, ho⟩ := orderly_after (o.parcels.map .register ++ cs.map (·.toCall))
      have hok := BootCall.ok_of_not_onCycle hb (o.holds hb hs cs) ho hcs.2 hacyc
      rw [List.map_append, List.map_singleton, ← List.append_assoc, after_append_singleton]
      refine ⟨hsucceed.concat hok, ?_⟩
      rw [List.forall_mem_append, List.forall_mem_singleton]
      exact ⟨fun e he => ho.loaded_run _ (hloaded e he), BootCall.loaded_of_ok hok⟩

theorem loaded {p : Parcel} (hp : p ∈ h.parcels) : (after o.calls).Loaded p.name := by
  obtain ⟨-, hloaded⟩ := o.succeeds_and_loads hb hs hacyc o.own
  obtain ⟨c, hc, rfl⟩ := o.all p hp
  exact hloaded c hc

/-- What is seen of a class in the end is known without the order. -/
theorem view?_eq_some_iff {n : String} {v : ClassView String} :
    (after o.calls).registry.stored.view? n = some v ↔
      ∃ c ∈ h.liveClasses, c.name = n ∧ (c.loaded target).view = v := by
  obtain ⟨past, ho⟩ := orderly_after o.calls
  have hr : Holds h target (after o.calls) := o.holds hb hs o.bootCalls
  have hsound := Registry.sound_of_bootstrap ho.ledger.registry
  rw [hsound.stored_view?, Option.map_eq_some_iff]
  simp only [ho.class?_eq_some_iff hb hr fun p hp => o.loaded hb hs hacyc hp]
  constructor
  · rintro ⟨l, ⟨c, hc, hn, rfl⟩, hv⟩
    exact ⟨c, hc, hn, hv⟩
  · rintro ⟨c, hc, hn, hv⟩
    exact ⟨_, ⟨c, hc, hn, rfl⟩, hv⟩

end LoadingOrder

/-- **The order of loading does not matter.**  Let the parcels of a hierarchy not inherit in a cycle,
and let all of them be registered, in any order, and asked for, in any order and by calls of both
kinds.  Then every call succeeds, and whatever the order was, the same is seen of every class in the
end: its parent, its table and its slots, and where its members begin and end.  The classes seen are
those that have instances. -/
theorem loading_order_irrelevant {d : Declarations} {h : Hierarchy} {target : Target}
    {specs : List (ParcelSpec String)} (hb : d.build = .ok h)
    (hs : h.parcels.mapM (h.runtimeParcel · target) = .ok specs) (hacyc : ∀ p, ¬ h.OnCycle p) :
    (∀ o : LoadingOrder h specs, AllSucceed o.calls) ∧
    (∀ (o o' : LoadingOrder h specs) (n : String),
      (after o.calls).registry.stored.view? n = (after o'.calls).registry.stored.view? n) ∧
    ∀ (o : LoadingOrder h specs) (n : String),
      ((after o.calls).registry.stored.view? n).isSome = true ↔ n ∈ h.liveClasses.map (·.name) := by
  refine ⟨fun o => (o.succeeds_and_loads hb hs hacyc o.own).1, ?_, ?_⟩
  · intro o o' n
    ext1 v
    rw [o.view?_eq_some_iff hb hs hacyc, o'.view?_eq_some_iff hb hs hacyc]
  · intro o n
    simp [Option.isSome_iff_exists, o.view?_eq_some_iff hb hs hacyc]

def kennelParcels : List (ParcelSpec String) :=
  (kennelHierarchy.parcels.mapM (kennelHierarchy.runtimeParcel · .lp64)).toOption.getD []

/-- First to last; every parcel is started. -/
def LoadingOrder.forwards (h : Hierarchy) (specs : List (ParcelSpec String)) :
    LoadingOrder h specs where
  parcels := specs
  perm := .refl _
  bootCalls := h.parcels.map .start
  own := by simp [BootCall.parcel]
  all := by simp [BootCall.parcel]

/-- Last to first; only classes are loaded. -/
def LoadingOrder.backwards (h : Hierarchy) (specs : List (ParcelSpec String)) :
    LoadingOrder h specs where
  parcels := specs.reverse
  perm := specs.reverse_perm
  bootCalls := h.parcels.reverse.map .inherit
  own := by simp [BootCall.parcel]
  all := by simp [BootCall.parcel]

/-- Backwards, the classes of `Kennel` come before those of `Zoo`. -/
theorem kennel_orders : ∃ o o' : LoadingOrder kennelHierarchy kennelParcels,
    (after o.calls).registry.names ≠ (after o'.calls).registry.names ∧
      AllSucceed o.calls ∧ AllSucceed o'.calls ∧ ∀ n,
        (after o.calls).registry.stored.view? n = (after o'.calls).registry.stored.view? n := by
  have hspecs : kennelHierarchy.parcels.mapM (kennelHierarchy.runtimeParcel · .lp64) =
      .ok kennelParcels := by decide +kernel
  have hrank : ∀ p ∈ kennelHierarchy.parcels, ∀ q ∈ kennelHierarchy.inheritedParcels p,
      kennelHierarchy.parcels.idxOf q < kennelHierarchy.parcels.idxOf p := by decide +kernel
  have hacyc : ∀ p, ¬ kennelHierarchy.OnCycle p := fun p =>
    Hierarchy.not_onCycle_of_rank kennel_build (kennelHierarchy.parcels.idxOf ·) hrank
  obtain ⟨hsucceed, hview, -⟩ := loading_order_irrelevant kennel_build hspecs hacyc
  refine ⟨.forwards _ _, .backwards _ _, ?_, hsucceed _, hsucceed _, hview _ _⟩
  decide +kernel

end ClassTables
