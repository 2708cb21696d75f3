import ClassTables.Proofs.Cycles
/-!
# Calls move forward and stay local

In the middle of a call states go back: a fault takes marks away at every depth.  But a mark is only
set on a parcel that had come less far, and taken away it leaves the parcel where it was or further.
So from before a call to after it no parcel falls back, whether the call succeeds or fails.

A walk visits what it can reach and nothing else.  This is said of any set of parcels that is closed
under the links which the walk follows (`LoadRun.within`, `StartRun.within`), and then of the
set of what is reached (`Call.Touches`).

Main statement: `advances_run`.
-/

namespace ClassTables

open Relation

namespace Runtime

variable {F : Type} {r r₁ r₂ r' : Runtime F} {n k : String} {ns : List String} {s : ParcelState}
  {p : ParcelEntry F} {evs : List BootEvent} {res : Except BootstrapError Unit}
  {T : String → Prop}

theorem inheritedOf_of_specs (h : r'.specs = r.specs) : r'.inheritedOf = r.inheritedOf := by
  funext n
  exact inheritedOf_eq_of_spec? (congrFun (spec?_of_specs h) n)

theorem prereqsOf_of_specs (h : r'.specs = r.specs) : r'.prereqsOf = r.prereqsOf :=
  prereqsOf_eq_of_spec? (spec?_of_specs h)

theorem classesOf_of_specs (h : r'.specs = r.specs) : r'.classesOf = r.classesOf := by
  funext n
  exact classesOf_eq_of_spec? (congrFun (spec?_of_specs h) n)

/-! ## No parcel falls back -/

/-- No parcel has come less far than before. -/
def Forward (r r' : Runtime F) : Prop :=
  ∀ k s, r.state? k = some s → ∃ s', r'.state? k = some s' ∧ s.rank ≤ s'.rank

theorem Forward.refl (r : Runtime F) : Forward r r := fun _ s hs => ⟨s, hs, Nat.le_refl _⟩

theorem Forward.trans (h : Forward r r₁) (h' : Forward r₁ r₂) : Forward r r₂ := by
  intro k s hs
  obtain ⟨s₁, hs₁, hle₁⟩ := h k s hs
  obtain ⟨s₂, hs₂, hle₂⟩ := h' k s₁ hs₁
  exact ⟨s₂, hs₂, Nat.le_trans hle₁ hle₂⟩

theorem Settles.forward (h : Settles r r') : Forward r r' := by
  intro k s hs
  rcases h k with heq | ⟨hold, hnew⟩
  · exact ⟨s, heq.trans hs, Nat.le_refl _⟩
  · obtain rfl : ParcelState.notStarted = s := Option.some.inj (hold.symm.trans hs)
    exact ⟨_, hnew, by decide⟩

/-- Whatever happens while a parcel counts as done, it has come no less far than before once it is
in a state that is no lower. -/
theorem Forward.setState (hn : r.state? n = some s) (h : Forward (r.setState n .parcelDone) r')
    {t : ParcelState} (ht : s.rank ≤ t.rank) : Forward r (r'.setState n t) := by
  intro k u hu
  by_cases hk : k = n
  · subst hk
    obtain rfl : s = u := Option.some.inj (hn.symm.trans hu)
    have hmark : (r.setState k .parcelDone).state? k = some .parcelDone := by
      rw [state?_setState, if_pos rfl, hn, Option.map_some]
    obtain ⟨v, hv, -⟩ := h k _ hmark
    refine ⟨t, ?_, ht⟩
    rw [state?_setState, if_pos rfl, hv, Option.map_some]
  · have hmark : (r.setState n .parcelDone).state? k = some u := by
      rw [state?_setState, if_neg hk, hu]
    obtain ⟨v, hv, hle⟩ := h k u hmark
    refine ⟨v, ?_, hle⟩
    rw [state?_setState, if_neg hk, hv]

/-- To count as done is to have come as far as a parcel can. -/
theorem forward_markDone (n : String) (r : Runtime F) : Forward r (r.setState n .parcelDone) := by
  intro k s hs
  rw [state?_setState, hs]
  split
  · refine ⟨.parcelDone, rfl, ?_⟩
    cases s <;> decide
  · exact ⟨s, rfl, Nat.le_refl _⟩

theorem StartRun.forward (h : StartRun ns r evs r' res) : Forward r r' := by
  induction h with
  | nil => exact Forward.refl _
  | unknown _ => exact Forward.refl _
  | known _ _ _ ih => exact ih
  | notLoaded _ _ hload => exact hload.settles.forward
  | @failed n _ _ r₁ _ _ _ _ _ hp hs hload _ ih =>
      -- the classes of the parcel stay loaded, and it was not done before
      have hloaded : r₁.state? n = some .inheritanceDone := by
        refine (hload.loaded_of_ok rfl n List.mem_cons_self).resolve_right fun hdone => hs ?_
        exact (done_iff_of_parcel? hp).mp ((hload.done_iff n).mp hdone)
      exact hload.settles.forward.trans (ih.setState hloaded (Nat.le_refl _))
  | @started n _ _ r₁ r₂ _ p _ _ _ _ _ _ hload _ _ ih ih' =>
      have hinit : Forward r₂ (runInit p.spec r₂) := by
        intro k s hs
        refine ⟨s, ?_, Nat.le_refl _⟩
        rwa [state?, parcel?, parcels_runInit]
      have hbelow := (hload.settles.forward.trans (forward_markDone n r₁)).trans ih
      exact (hbelow.trans hinit).trans ih'

/-! ## What a walk leaves alone -/

/-- A set of parcels that holds, with a parcel, what it needs. -/
def ClosedUnder (needs : String → List String) (T : String → Prop) : Prop :=
  ∀ a, T a → ∀ b ∈ needs a, T b

/-- What the events have changed is in a set of parcels. -/
structure Within (T : String → Prop) (evs : List BootEvent) (r r' : Runtime F) : Prop where
  specs : r'.specs = r.specs
  elsewhere : ∀ k, ¬ T k → r'.state? k = r.state? k
  loaded : ∀ k ∈ loadedBy evs, T k
  registry : r.registry.bootstrap ((loadedBy evs).flatMap r.classesOf) = .ok r'.registry

theorem Within.refl (r : Runtime F) : Within T [] r r := ⟨rfl, fun _ _ => rfl, List.forall_mem_nil _, rfl⟩

theorem Within.trans {evs' : List BootEvent} (h : Within T evs r r₁) (h' : Within T evs' r₁ r₂) :
    Within T (evs ++ evs') r r₂ where
  specs := h'.specs.trans h.specs
  elsewhere := fun k hk => (h'.elsewhere k hk).trans (h.elsewhere k hk)
  loaded := by
    intro k hk
    rw [loadedBy_append, List.mem_append] at hk
    exact hk.elim (h.loaded k) (h'.loaded k)
  registry := by
    have hrest := h'.registry
    rw [classesOf_of_specs h.specs] at hrest
    rw [loadedBy_append, List.flatMap_append]
    exact Registry.bootstrap_append h.registry hrest

/-- A mark on a parcel of the set. -/
theorem Within.setState (hn : T n) (s : ParcelState) (h : Within T evs r r₁) :
    Within T evs r (r₁.setState n s) where
  specs := (specs_setState s).trans h.specs
  elsewhere := by
    intro k hk
    have hne : k ≠ n := fun heq => hk (heq ▸ hn)
    rw [state?_setState, if_neg hne, h.elsewhere k hk]
  loaded := h.loaded
  registry := h.registry

theorem Within.runInit (p : ParcelSpec F) (h : Within T evs r r₁) :
    Within T (evs ++ p.initEvents) r (runInit p r₁) where
  specs := (specs_runInit p).trans h.specs
  elsewhere := by
    intro k hk
    rw [state?, parcel?, parcels_runInit]
    exact h.elsewhere k hk
  loaded := by
    rw [loadedBy_append, loadedBy_initEvents, List.append_nil]
    exact h.loaded
  registry := by
    have hreg : (Runtime.runInit p r₁).registry = r₁.registry := by
      rw [Runtime.runInit]
      split <;> rfl
    rw [loadedBy_append, loadedBy_initEvents, List.append_nil, hreg]
    exact h.registry

/-- The classes of a parcel of the set are loaded. -/
theorem Within.load {registry : Registry F} (hn : T n) (hp : r.parcel? n = some p) (count : Nat)
    (h : Within T evs r r₁) (hreg : r₁.registry.bootstrap p.spec.classes = .ok registry) :
    Within T (evs ++ [.load n count]) r { r₁ with registry } where
  specs := h.specs
  elsewhere := h.elsewhere
  loaded := by
    intro k hk
    rw [loadedBy_append, loadedBy_load, List.mem_append, List.mem_singleton] at hk
    rcases hk with hk | rfl
    · exact h.loaded k hk
    · exact hn
  registry := by
    have hown : r.classesOf n = p.spec.classes := by
      rw [classesOf, spec?_of_parcel? hp, Option.map_some, Option.getD_some]
    rw [loadedBy_append, loadedBy_load, List.flatMap_append, List.flatMap_singleton, hown]
    exact Registry.bootstrap_append h.registry hreg

theorem ClosedUnder.inherited (hT : ClosedUnder r.inheritedOf T) (hp : r.parcel? n = some p)
    (hn : T n) : ∀ b ∈ p.spec.inherited, T b := by
  rw [← inheritedOf_of_parcel? hp]
  exact hT n hn

theorem ClosedUnder.prereqs (hT : ClosedUnder r.prereqsOf T) (hp : r.parcel? n = some p)
    (hn : T n) : ∀ b ∈ p.spec.prereqs, T b := by
  rw [← prereqsOf_of_parcel? hp]
  exact hT n hn

/-- **Loading stays inside any set that is closed under inheritance.** -/
theorem LoadRun.within (h : LoadRun ns r evs r' res) (hT : ClosedUnder r.inheritedOf T)
    (hns : ∀ n ∈ ns, T n) : Within T evs r r' := by
  -- what a parcel inherits from is loaded while the parcel is marked
  have hmark : ∀ {n : String} {r r₁ : Runtime F} {evs : List BootEvent}, T n →
      Within T evs (r.setState n .inheritanceInProgress) r₁ → Within T evs r r₁ :=
    fun hn hsub => ((Within.refl _).setState hn _).trans hsub
  induction h with
  | nil => exact Within.refl _
  | unknown _ => exact Within.refl _
  | cyclic _ _ => exact Within.refl _
  | known _ _ _ ih => exact ih hT (List.forall_mem_cons.mp hns).2
  | failed hp _ _ ih =>
      have hn := hns _ List.mem_cons_self
      have hsub := ih (by rwa [inheritedOf_of_specs (specs_setState _)]) (hT.inherited hp hn)
      exact (hmark hn hsub).setState hn _
  | refused hp _ _ _ ih =>
      have hn := hns _ List.mem_cons_self
      have hsub := ih (by rwa [inheritedOf_of_specs (specs_setState _)]) (hT.inherited hp hn)
      exact (hmark hn hsub).setState hn _
  | @loaded _ _ _ _ _ p _ _ _ _ hp _ _ hreg _ ih ih' =>
      obtain ⟨hn, hrest⟩ := List.forall_mem_cons.mp hns
      have hsub := ih (by rwa [inheritedOf_of_specs (specs_setState _)]) (hT.inherited hp hn)
      have hone := ((hmark hn hsub).load hn hp p.spec.classes.length hreg).setState hn .inheritanceDone
      have hnext := ih' (by rwa [inheritedOf_of_specs hone.specs]) hrest
      simpa using hone.trans hnext

/-- **Starting stays inside any set that is closed under inheritance and prerequisites.** -/
theorem StartRun.within (h : StartRun ns r evs r' res) (hT : ClosedUnder r.inheritedOf T)
    (hT' : ClosedUnder r.prereqsOf T) (hns : ∀ n ∈ ns, T n) : Within T evs r r' := by
  have hload : ∀ {n : String} {r r₁ : Runtime F} {evs : List BootEvent}
      {res : Except BootstrapError Unit}, ClosedUnder r.inheritedOf T → T n →
      LoadRun [n] r evs r₁ res → Within T evs r r₁ :=
    fun hT hn hrun => hrun.within hT (List.forall_mem_singleton.mpr hn)
  induction h with
  | nil => exact Within.refl _
  | unknown _ => exact Within.refl _
  | known _ _ _ ih => exact ih hT hT' (List.forall_mem_cons.mp hns).2
  | notLoaded _ _ hrun => exact hload hT (hns _ List.mem_cons_self) hrun
  | failed hp _ hrun _ ih =>
      have hn := hns _ List.mem_cons_self
      have hmark := (hload hT hn hrun).setState hn .parcelDone
      have hsub := ih (by rwa [inheritedOf_of_specs hmark.specs])
        (by rwa [prereqsOf_of_specs hmark.specs]) (hT'.prereqs hp hn)
      exact (hmark.trans hsub).setState hn _
  | @started _ _ _ _ _ _ p _ _ _ _ hp _ hrun _ _ ih ih' =>
      obtain ⟨hn, hrest⟩ := List.forall_mem_cons.mp hns
      have hmark := (hload hT hn hrun).setState hn .parcelDone
      have hsub := ih (by rwa [inheritedOf_of_specs hmark.specs])
        (by rwa [prereqsOf_of_specs hmark.specs]) (hT'.prereqs hp hn)
      have hone := (hmark.trans hsub).runInit p.spec
      exact hone.trans (ih' (by rwa [inheritedOf_of_specs hone.specs])
        (by rwa [prereqsOf_of_specs hone.specs]) hrest)

/-! ## Calls -/

/-- The parcels that a call may change: those that can be reached from the parcel that it names,
itself among them. -/
def Call.Touches (r : Runtime F) : Call F → String → Prop
  | .register p => (· = p.name)
  | .inherit n => ReflTransGen (fun a b => b ∈ r.inheritedOf a) n
  | .start n => ReflTransGen (fun a b => b ∈ r.inheritedOf a ∨ b ∈ r.prereqsOf a) n

/-- What a call may do: it moves parcels forward, and only those of a set. -/
structure Advances (touched : String → Prop) (r r' : Runtime F) : Prop where
  /-- No parcel falls back. -/
  forward : ∀ k s, r.state? k = some s → ∃ s', r'.state? k = some s' ∧ s.rank ≤ s'.rank
  elsewhere : ∀ k, ¬ touched k → r'.state? k = r.state? k
  /-- Loaded classes stay as they are and where they are. -/
  kept : r.registry.classes <+: r'.registry.classes
  /-- What is added are the classes of touched parcels. -/
  added : ∃ ns : List String, (∀ k ∈ ns, touched k) ∧
    r.registry.bootstrap (ns.flatMap r.classesOf) = .ok r'.registry
  source : ∀ c ∈ r'.registry.classes, c ∈ r.registry.classes ∨
    ∃ k, touched k ∧ ∃ spec ∈ r.classesOf k, spec.key = c.key

theorem Within.advances (h : Within T evs r r') (hforward : Forward r r') : Advances T r r' where
  forward := hforward
  elsewhere := h.elsewhere
  kept := Registry.classes_isPrefix_of_bootstrap h.registry
  added := ⟨loadedBy evs, h.loaded, h.registry⟩
  source := by
    intro c hc
    obtain ⟨new, hnew⟩ := Registry.classes_isPrefix_of_bootstrap h.registry
    have hkeys := Registry.keys_of_bootstrap h.registry
    rw [← hnew, List.map_append] at hkeys
    rw [← hnew, List.mem_append] at hc
    refine hc.imp_right fun hc => ?_
    have hkey := List.mem_map_of_mem (f := LoadedClass.key) hc
    rw [List.append_cancel_left hkeys] at hkey
    obtain ⟨spec, hspec, hkey⟩ := List.mem_map.mp hkey
    obtain ⟨k, hk, hspec⟩ := List.mem_flatMap.mp hspec
    exact ⟨k, h.loaded k hk, spec, hspec, hkey⟩

/-- To register a parcel changes nothing for those that are registered. -/
theorem advances_registerParcel (p : ParcelSpec F) :
    Advances (· = p.name) r (registerParcel p r).1 := by
  cases hp : r.parcel? p.name with
  | some e =>
      have hsame : (registerParcel p r).1 = r := by
        rw [registerParcel, hp]
        rfl
      rw [hsame]
      exact (Within.refl r).advances (Forward.refl r)
  | none =>
      have hother : ∀ k, k ≠ p.name → (registerParcel p r).1.state? k = r.state? k := by
        intro k hk
        rw [state?, state?, parcel?_registerParcel hp, if_neg hk]
      have hreg : (registerParcel p r).1.registry = r.registry := registry_registerParcel
      refine ⟨?_, hother, hreg ▸ List.prefix_refl _, ⟨[], List.forall_mem_nil _, hreg ▸ rfl⟩, ?_⟩
      · intro k s hs
        have hne : k ≠ p.name := by
          rintro rfl
          rw [state?, hp] at hs
          cases hs
        exact ⟨s, (hother k hne).trans hs, Nat.le_refl _⟩
      · intro c hc
        rw [hreg] at hc
        exact Or.inl hc

/-- **Calls move forward and stay local,** whether they succeed or fail. -/
theorem advances_run (r : Runtime F) (c : Call F) : Advances (c.Touches r) r (c.run r).1 := by
  cases c with
  | register p => exact advances_registerParcel p
  | inherit n =>
      obtain ⟨evs, hrun⟩ := exists_loadRun n r
      have hT : ClosedUnder r.inheritedOf ((Call.inherit n).Touches r) := fun a ha b hb => ha.tail hb
      have hwithin := hrun.within hT (List.forall_mem_singleton.mpr .refl)
      exact hwithin.advances hrun.settles.forward
  | start n =>
      obtain ⟨evs, hrun⟩ := exists_startRun n r
      have hT : ClosedUnder r.inheritedOf ((Call.start n).Touches r) := fun a ha b hb =>
        ha.tail (Or.inl hb)
      have hT' : ClosedUnder r.prereqsOf ((Call.start n).Touches r) := fun a ha b hb =>
        ha.tail (Or.inr hb)
      have hwithin := hrun.within hT hT' (List.forall_mem_singleton.mpr .refl)
      exact hwithin.advances hrun.forward

end Runtime

end ClassTables
