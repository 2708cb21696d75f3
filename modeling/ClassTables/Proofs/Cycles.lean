import ClassTables.Proofs.LoadedParcels
/-!
# Cycles of inheritance are found

While the parcels that a parcel inherits from are loaded, it carries a mark.  To come back to a
marked parcel is the only sign of a cycle that a walk looks for, and the sign is right on both sides:

- Between calls nothing is marked.  So a walk set the mark itself on its way down, and the way from
  the marked parcel to the place where it is met again closes a cycle (`LoadRun.exists_restsOn`).
- What is loaded inherits from what was loaded earlier (`Ledger.idxOf_lt_of_inherits`), so nothing
  on a cycle is ever loaded.  A call that succeeds loads whatever it reaches, so it meets no cycle.

Main statement: `cycles_found_after`, for every runtime that any calls have led to, failed ones and
registrations between them included.
-/

namespace ClassTables

namespace Runtime

open Relation

variable {F : Type} {r r₁ r' : Runtime F} {a b n m q : String} {ns : List String}
  {evs past : List BootEvent} {res : Except BootstrapError Unit}

/-! ## Inheritance between registered parcels -/

/-- The parcel is registered. -/
def Known (r : Runtime F) (n : String) : Prop := (r.spec? n).isSome = true

/-- The first parcel inherits from the second one, and both are registered. -/
def Inherits (r : Runtime F) (a b : String) : Prop := b ∈ r.inheritedOf a ∧ r.Known b

/-- The second parcel is reached from the first one along inheritance. -/
def RestsOn (r : Runtime F) : String → String → Prop := ReflTransGen r.Inherits

/-- The parcel inherits from itself, perhaps through others. -/
def OnCycle (r : Runtime F) (n : String) : Prop := TransGen r.Inherits n n

theorem known_of_parcel? {p : ParcelEntry F} (hp : r.parcel? n = some p) : r.Known n := by
  rw [Known, spec?_of_parcel? hp]
  rfl

theorem Known.parcel?_ne_none (hn : r.Known n) : r.parcel? n ≠ none := by
  intro hnone
  rw [Known, spec?, hnone] at hn
  cases hn

theorem Inherits.known_left (h : r.Inherits a b) : r.Known a := by
  rw [Known, Option.isSome_iff_ne_none]
  intro hnone
  obtain ⟨hb, -⟩ := h
  rw [inheritedOf, hnone] at hb
  cases hb

/-- What leads to a registered parcel is registered. -/
theorem RestsOn.known (h : r.RestsOn n q) (hq : r.Known q) : r.Known n := by
  rcases h.cases_head with rfl | ⟨m, hnm, -⟩
  · exact hq
  · exact hnm.known_left

theorem OnCycle.known (h : r.OnCycle q) : r.Known q := by
  obtain ⟨m, -, hmq⟩ := TransGen.tail'_iff.mp h
  exact hmq.2

theorem known_of_specs (h : r'.specs = r.specs) : r'.Known = r.Known := by
  funext n
  rw [Known, Known, spec?_of_specs h]

/-- Who inherits from whom is known by the specifications alone. -/
theorem inherits_of_specs (h : r'.specs = r.specs) : r'.Inherits = r.Inherits := by
  funext a b
  rw [Inherits, Inherits, known_of_specs h, inheritedOf, inheritedOf, spec?_of_specs h]

theorem restsOn_of_specs (h : r'.specs = r.specs) : r'.RestsOn = r.RestsOn := by
  rw [RestsOn, RestsOn, inherits_of_specs h]

theorem onCycle_of_specs (h : r'.specs = r.specs) : r'.OnCycle = r.OnCycle := by
  funext n
  rw [OnCycle, OnCycle, inherits_of_specs h]

theorem reaches_of_specs (h : r'.specs = r.specs) : r'.Reaches = r.Reaches := by
  rw [Reaches, Reaches, prereqsOf_eq_of_spec? (spec?_of_specs h)]

theorem inheritedOf_of_parcel? {p : ParcelEntry F} (hp : r.parcel? n = some p) :
    r.inheritedOf n = p.spec.inherited := by
  rw [inheritedOf, spec?_of_parcel? hp, Option.map_some, Option.getD_some]

theorem prereqsOf_of_parcel? {p : ParcelEntry F} (hp : r.parcel? n = some p) :
    r.prereqsOf n = p.spec.prereqs := by
  rw [prereqsOf, spec?_of_parcel? hp, Option.map_some, Option.getD_some]

/-! ## A report is right -/

/-- The parcel is marked: it waits for those that it inherits from. -/
def Waits (r : Runtime F) (n : String) : Prop := r.state? n = some .inheritanceInProgress

theorem Waits.known (h : r.Waits q) : r.Known q := by
  rw [Waits, state?, Option.map_eq_some_iff] at h
  obtain ⟨p, hp, -⟩ := h
  exact known_of_parcel? hp

theorem Settles.waits (h : Settles r r') (hq : r'.Waits q) : r.Waits q := by
  rcases h q with h | ⟨-, h⟩
  · rwa [Waits, ← h]
  · rw [Waits, h] at hq
    cases hq

/-- What is reported below a marked parcel is the parcel itself, which is then on a cycle, or would
have been reported without the mark. -/
theorem restsOn_of_mark {p : ParcelEntry F} (hp : r.parcel? n = some p)
    (hm : m ∈ p.spec.inherited) (hpath : (r.setState n .inheritanceInProgress).RestsOn m q)
    (hq : (r.setState n .inheritanceInProgress).Waits q ∨
      (r.setState n .inheritanceInProgress).OnCycle q) :
    r.RestsOn n q ∧ (r.Waits q ∨ r.OnCycle q) := by
  have hspecs : (r.setState n .inheritanceInProgress).specs = r.specs := specs_setState _
  have hknown : r.Known q := known_of_specs hspecs ▸ hq.elim Waits.known OnCycle.known
  rw [restsOn_of_specs hspecs] at hpath
  rw [onCycle_of_specs hspecs] at hq
  have hnm : r.Inherits n m := ⟨inheritedOf_of_parcel? hp ▸ hm, hpath.known hknown⟩
  refine ⟨.head hnm hpath, ?_⟩
  by_cases hqn : q = n
  · exact Or.inr (hqn ▸ .head' hnm (hqn ▸ hpath))
  · rwa [Waits, state?_setState, if_neg hqn] at hq

/-- **A walk reports a parcel that it reaches,** and one that was marked before or is on a cycle. -/
theorem LoadRun.exists_restsOn (h : LoadRun ns r evs r' res)
    (hres : res = .error (.cyclicInheritance q)) :
    ∃ n ∈ ns, r.RestsOn n q ∧ (r.Waits q ∨ r.OnCycle q) := by
  induction h with
  | nil => cases hres
  | unknown _ => cases hres
  | @cyclic _ _ r _ hp hs =>
      cases hres
      have hq : r.Waits q := by rw [Waits, state?_of_parcel? hp, hs]
      exact ⟨q, List.mem_cons_self, .refl, Or.inl hq⟩
  | known _ _ _ ih =>
      obtain ⟨m, hm, hfound⟩ := ih hres
      exact ⟨m, List.mem_cons_of_mem _ hm, hfound⟩
  | failed hp _ _ ih =>
      obtain ⟨m, hm, hpath, hq⟩ := ih hres
      exact ⟨_, List.mem_cons_self, restsOn_of_mark hp hm hpath hq⟩
  | refused _ _ _ _ _ => cases hres
  | loaded hp hs hsub hreg _ _ ih' =>
      obtain ⟨m, hm, hpath, hq⟩ := ih' hres
      have hone := LoadRun.loaded hp hs hsub hreg .nil
      rw [restsOn_of_specs hone.specs] at hpath
      rw [onCycle_of_specs hone.specs] at hq
      exact ⟨m, List.mem_cons_of_mem _ hm, hpath, hq.imp_left hone.settles.waits⟩

/-- Where nothing is marked, what is reported is on a cycle. -/
theorem LoadRun.exists_onCycle (h : LoadRun ns r evs r' res) (hr : Settled r)
    (hres : res = .error (.cyclicInheritance q)) : ∃ n ∈ ns, r.RestsOn n q ∧ r.OnCycle q := by
  obtain ⟨n, hn, hpath, hq⟩ := h.exists_restsOn hres
  exact ⟨n, hn, hpath, hq.resolve_left (hr q)⟩

/-- **Starting parcels reports a cycle below some parcel that is needed.** -/
theorem StartRun.exists_onCycle (h : StartRun ns r evs r' res) (hr : Settled r)
    (hres : res = .error (.cyclicInheritance q)) :
    ∃ n ∈ ns, ∃ m, r.Reaches n m ∧ r.RestsOn m q ∧ r.OnCycle q := by
  induction h with
  | nil => cases hres
  | unknown _ => cases hres
  | known _ _ _ ih =>
      obtain ⟨n, hn, hfound⟩ := ih hr hres
      exact ⟨n, List.mem_cons_of_mem _ hn, hfound⟩
  | notLoaded _ _ hload =>
      obtain ⟨k, hk, hpath, hq⟩ := hload.exists_onCycle hr hres
      exact ⟨_, List.mem_cons_self, k, List.mem_singleton.mp hk ▸ .refl, hpath, hq⟩
  | @failed n _ r r₁ _ p _ _ _ hp _ hload _ ih =>
      obtain ⟨k, hk, m, hreach, hpath, hq⟩ := ih ((hload.settled hr).setState (by decide)) hres
      have hspecs : (r₁.setState n .parcelDone).specs = r.specs :=
        (specs_setState _).trans hload.specs
      rw [reaches_of_specs hspecs] at hreach
      rw [restsOn_of_specs hspecs] at hpath
      rw [onCycle_of_specs hspecs] at hq
      have hnk : k ∈ r.prereqsOf n := prereqsOf_of_parcel? hp ▸ hk
      exact ⟨n, List.mem_cons_self, m, .head hnk hreach, hpath, hq⟩
  | started hp hs hload hsub _ _ ih' =>
      have hone := StartRun.started hp hs hload hsub .nil
      obtain ⟨k, hk, m, hreach, hpath, hq⟩ := ih' (hone.settled hr) hres
      rw [reaches_of_specs hone.specs] at hreach
      rw [restsOn_of_specs hone.specs] at hpath
      rw [onCycle_of_specs hone.specs] at hq
      exact ⟨k, List.mem_cons_of_mem _ hk, m, hreach, hpath, hq⟩

/-! ## No cycle is missed -/

/-- **What is loaded inherits from what was loaded earlier.** -/
theorem Ledger.idxOf_lt_of_inherits (h : Ledger past r) (ha : a ∈ loadedBy past)
    (hab : r.Inherits a b) :
    b ∈ loadedBy past ∧ (loadedBy past).idxOf b < (loadedBy past).idxOf a := by
  obtain ⟨pre, post, hpast⟩ := List.append_of_mem ha
  have hb : b ∈ pre := h.order pre a post hpast b hab.1
  have hnd := h.once
  rw [hpast, List.nodup_append'] at hnd
  have hnot : a ∉ pre := fun hmem => hnd.2.2 hmem List.mem_cons_self
  rw [hpast, List.idxOf_append_of_mem hb, List.idxOf_append_of_notMem hnot]
  exact ⟨List.mem_append_left _ hb, Nat.lt_add_right _ (List.idxOf_lt_length_of_mem hb)⟩

theorem Ledger.idxOf_lt_of_transGen (h : Ledger past r) (ha : a ∈ loadedBy past)
    (hab : TransGen r.Inherits a b) :
    b ∈ loadedBy past ∧ (loadedBy past).idxOf b < (loadedBy past).idxOf a := by
  induction hab with
  | single hab => exact h.idxOf_lt_of_inherits ha hab
  | tail _ hbc ih =>
      obtain ⟨hc, hlt⟩ := h.idxOf_lt_of_inherits ih.1 hbc
      exact ⟨hc, Nat.lt_trans hlt ih.2⟩

/-- **Nothing on a cycle is ever loaded,** nor anything that rests on a cycle. -/
theorem Ledger.not_onCycle (h : Ledger past r) (hn : r.Loaded n) (hq : r.RestsOn n q) :
    ¬ r.OnCycle q := by
  intro hcycle
  have hmem : q ∈ loadedBy past := by
    rcases reflTransGen_iff_eq_or_transGen.mp hq with rfl | hpath
    · exact (h.loaded q).mp hn
    · exact (h.idxOf_lt_of_transGen ((h.loaded n).mp hn) hpath).1
  exact Nat.lt_irrefl _ (h.idxOf_lt_of_transGen hmem hcycle).2

/-- A call that succeeds has met no cycle. -/
theorem Ledger.not_onCycle_of_ok (h : Ledger past r)
    (hok : (bootstrapInheritance n r).2 = .ok ()) (hq : r.RestsOn n q) : ¬ r.OnCycle q := by
  obtain ⟨evs, hrun⟩ := exists_loadRun n r
  have hn := hrun.loaded_of_ok hok n List.mem_cons_self
  rw [← restsOn_of_specs hrun.specs] at hq
  rw [← onCycle_of_specs hrun.specs]
  exact (hrun.ledger h).not_onCycle hn hq

/-! ## Runs -/

/-- **Cycles of inheritance are found,** after any calls.  A call to load the classes of a parcel
does not succeed where a cycle is reached from it, and if it reports a cycle at a parcel, this one is
reached and on a cycle.  Calls that failed before, for whatever reason, leave nothing behind that a
later call of any kind would take for a cycle. -/
theorem cycles_found_after (calls : List (Call F)) :
    (∀ n q, (after calls).RestsOn n q → (after calls).OnCycle q →
      (bootstrapInheritance n (after calls)).2 ≠ .ok ()) ∧
    (∀ n q, (bootstrapInheritance n (after calls)).2 = .error (.cyclicInheritance q) →
      (after calls).RestsOn n q ∧ (after calls).OnCycle q) ∧
    ∀ (c : Call F) q, (c.run (after calls)).2 = .error (.cyclicInheritance q) →
      (after calls).OnCycle q := by
  obtain ⟨past, h⟩ := orderly_after calls
  have hinherit : ∀ n q, (bootstrapInheritance n (after calls)).2 =
      .error (.cyclicInheritance q) → (after calls).RestsOn n q ∧ (after calls).OnCycle q := by
    intro n q herr
    obtain ⟨evs, hrun⟩ := exists_loadRun n (after calls)
    obtain ⟨k, hk, hpath, hq⟩ := hrun.exists_onCycle h.settled herr
    exact ⟨List.mem_singleton.mp hk ▸ hpath, hq⟩
  refine ⟨fun n q hpath hq hok => h.ledger.not_onCycle_of_ok hok hpath hq, hinherit, ?_⟩
  intro c q herr
  cases c with
  | register p =>
      rw [Call.run, registerParcel] at herr
      split at herr
      · cases herr
      · cases herr
  | inherit n => exact (hinherit n q herr).2
  | start n =>
      obtain ⟨evs, hrun⟩ := exists_startRun n (after calls)
      obtain ⟨-, -, -, -, -, hq⟩ := hrun.exists_onCycle h.settled herr
      exact hq

/-- `P` and `Q` are marked when `X` turns out to be missing.  Registered later, `X` closes a cycle. -/
def lateCycle : List (Call String) :=
  [.register { name := "P", inherited := ["Q"] },
   .register { name := "Q", inherited := ["X"] },
   .inherit "P",
   .register { name := "X", inherited := ["P"] }]

theorem lateCycle_found :
    (bootstrapInheritance "P" (after (lateCycle.take 2))).2 = .error (.unknownParcel "X") ∧
      (bootstrapInheritance "Q" (after lateCycle)).2 = .error (.cyclicInheritance "Q") ∧
        (after lateCycle).OnCycle "Q" ∧
          (bootstrapInheritance "P" (after lateCycle)).2 ≠ .ok () := by
  have hfails : (bootstrapInheritance "P" (after (lateCycle.take 2))).2 =
      .error (.unknownParcel "X") := by decide +kernel
  have hreport : (bootstrapInheritance "Q" (after lateCycle)).2 =
      .error (.cyclicInheritance "Q") := by decide +kernel
  obtain ⟨hcomplete, hsound, -⟩ := cycles_found_after lateCycle
  obtain ⟨-, hq⟩ := hsound "Q" "Q" hreport
  have hpq : (after lateCycle).Inherits "P" "Q" := by
    constructor
    · decide +kernel
    · rw [Known]
      decide +kernel
  exact ⟨hfails, hreport, hq, hcomplete "P" "Q" (.single hpq) hq⟩

end Runtime

end ClassTables
