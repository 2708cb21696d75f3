import ClassTables.Proofs.BootRules
/-!
# Initializers run once

While a parcel is being started it counts as done long before its initializer runs, and a fault
takes that mark back.  So the log and the states disagree in the middle of a call.  What holds all
along is a balance: a call adds to the log as many runs of an initializer as it adds to what is
done (`StartRun.log_count`).  Before and after every call of a run the two therefore agree
(`log_count_after`).
-/

namespace ClassTables

namespace Runtime

variable {F : Type} {r r₁ r₂ r' : Runtime F} {n k : String} {ns : List String}
  {evs : List BootEvent} {res : Except BootstrapError Unit}

/-- The parcel is registered with an initializer. -/
def hasInit (r : Runtime F) (n : String) : Bool := (r.spec? n).any (·.hasInit)

/-- How often the initializer of a parcel should have run. -/
def owedRuns (r : Runtime F) (n : String) : Nat :=
  if r.hasInit n = true ∧ r.state? n = some .parcelDone then 1 else 0

theorem hasInit_eq_of_specs (h : r'.specs = r.specs) (n : String) : r'.hasInit n = r.hasInit n := by
  rw [hasInit, hasInit, spec?_of_specs h]

theorem owedRuns_congr (hspecs : r'.specs = r.specs) (hdone : r'.Done n ↔ r.Done n) :
    r'.owedRuns n = r.owedRuns n := by
  rw [Done, Done] at hdone
  rw [owedRuns, owedRuns, hasInit_eq_of_specs hspecs]
  simp only [hdone]

theorem owedRuns_of_not_done (h : ¬ r.Done n) : r.owedRuns n = 0 := by
  rw [owedRuns, if_neg]
  exact fun h' => h h'.2

theorem owedRuns_of_done (h : r.Done n) : r.owedRuns n = if r.hasInit n = true then 1 else 0 := by
  rw [Done] at h
  rw [owedRuns]
  simp only [h, and_true]

/-! ## What a call adds -/

theorem LoadRun.log (h : LoadRun [n] r evs r' res) : r'.log = r.log := by
  have hkept := kept_bootstrapInheritance n r
  rw [h.eq_bootstrap] at hkept
  exact hkept.log

theorem LoadRun.owedRuns (h : LoadRun ns r evs r' res) (k : String) :
    r'.owedRuns k = r.owedRuns k :=
  owedRuns_congr h.specs (h.done_iff k)

theorem count_log_runInit {p : ParcelSpec F} (hp : r.spec? n = some p) :
    (runInit p r).log.count k =
      r.log.count k + if k = n ∧ r.hasInit n = true then 1 else 0 := by
  have hinit : r.hasInit n = p.hasInit := by rw [hasInit, hp, Option.any_some]
  rw [runInit, hinit]
  by_cases h : p.hasInit = true
  · rw [if_pos h, List.count_append, spec?_name hp]
    by_cases hk : k = n
    · subst hk
      simp [h]
    · have hne : n ≠ k := Ne.symm hk
      simp [hk, hne]
  · simp [h]

section Below

variable {p : ParcelEntry F} {evs' : List BootEvent}

/-- The prerequisites of a parcel, started while it is marked, do not run its initializer. -/
theorem log_count_marked (hp : r.parcel? n = some p) (hload : LoadRun [n] r evs r₁ (.ok ()))
    (hsub : StartRun p.spec.prereqs (r₁.setState n .parcelDone) evs' r₂ res)
    (hcount : r₂.log.count n + (r₁.setState n .parcelDone).owedRuns n =
      (r₁.setState n .parcelDone).log.count n + r₂.owedRuns n) :
    r₂.log.count n = r.log.count n := by
  have hmark := (hload.done_mark_iff hp n).mpr (Or.inr rfl)
  have howed : r₂.owedRuns n = (r₁.setState n .parcelDone).owedRuns n :=
    owedRuns_congr hsub.specs ⟨fun _ => hmark, hsub.done n⟩
  have hlog : (r₁.setState n .parcelDone).log = r.log := hload.log
  rw [hlog] at hcount
  omega

/-- For any other parcel the mark makes no difference. -/
theorem log_count_unmarked (hp : r.parcel? n = some p) (hload : LoadRun [n] r evs r₁ (.ok ()))
    (hk : k ≠ n) (hcount : r₂.log.count k + (r₁.setState n .parcelDone).owedRuns k =
      (r₁.setState n .parcelDone).log.count k + r₂.owedRuns k) :
    r₂.log.count k + r.owedRuns k = r.log.count k + r₂.owedRuns k := by
  have howed : (r₁.setState n .parcelDone).owedRuns k = r.owedRuns k := by
    apply owedRuns_congr
    · rw [specs_setState, hload.specs]
    · rw [hload.done_mark_iff hp]
      exact or_iff_left hk
  have hlog : (r₁.setState n .parcelDone).log = r.log := hload.log
  rwa [howed, hlog] at hcount

end Below

/-- **What a call adds to the log is what it adds to the parcels that are done.** -/
theorem StartRun.log_count (h : StartRun ns r evs r' res) (k : String) :
    r'.log.count k + r.owedRuns k = r.log.count k + r'.owedRuns k := by
  induction h with
  | nil => rfl
  | unknown _ => rfl
  | known _ _ _ ih => exact ih
  | notLoaded _ _ hload => rw [hload.log, hload.owedRuns]
  | @failed n ns r r₁ r₂ p evs evs' e hp hs hload hsub ih =>
      have hback : (r₂.setState n .inheritanceDone).Done k ↔ r₂.Done k ∧ k ≠ n :=
        done_setState_of_ne (by decide)
      have hlog : (r₂.setState n .inheritanceDone).log = r₂.log := rfl
      rw [hlog]
      by_cases hk : k = n
      · subst hk
        have hn : ¬ r.Done k := (done_iff_of_parcel? hp).not.mpr hs
        rw [log_count_marked hp hload hsub ih, owedRuns_of_not_done hn,
          owedRuns_of_not_done fun h => (hback.mp h).2 rfl]
      · have howed : (r₂.setState n .inheritanceDone).owedRuns k = r₂.owedRuns k :=
          owedRuns_congr (specs_setState _) (hback.trans (and_iff_left hk))
        rw [howed]
        exact log_count_unmarked hp hload hk ih
  | @started n ns r r₁ r₂ r' p evs evs' evs'' res hp hs hload hsub _ ih ih' =>
      have hspec : r₂.spec? n = some p.spec := by
        rw [spec?_of_specs hsub.specs, spec?_setState, spec?_of_specs hload.specs,
          spec?_of_parcel? hp]
      have howed : (runInit p.spec r₂).owedRuns k = r₂.owedRuns k :=
        owedRuns_congr (specs_runInit _) (done_runInit _)
      rw [count_log_runInit hspec, howed] at ih'
      by_cases hk : k = n
      · -- here the initializer runs, for the one that is owed from now on
        subst hk
        have hn : ¬ r.Done k := (done_iff_of_parcel? hp).not.mpr hs
        have hdone : r₂.Done k := hsub.done k ((hload.done_mark_iff hp k).mpr (Or.inr rfl))
        have hcount := log_count_marked hp hload hsub ih
        rw [owedRuns_of_done hdone, hcount] at ih'
        rw [owedRuns_of_not_done hn]
        simp only [true_and] at ih'
        omega
      · have hcount := log_count_unmarked hp hload hk ih
        simp only [hk, false_and, if_false] at ih'
        omega

/-! ## Runs -/

theorem owedRuns_registerParcel (p : ParcelSpec F) :
    (registerParcel p r).1.owedRuns n = r.owedRuns n := by
  by_cases hn : r.Done n
  · obtain ⟨q, hq⟩ := Option.isSome_iff_exists.mp hn.spec?_isSome
    have hn' : (registerParcel p r).1.Done n := done_registerParcel.mpr hn
    rw [owedRuns_of_done hn, owedRuns_of_done hn', hasInit, hasInit, hq, spec?_registerParcel hq]
  · have hn' : ¬ (registerParcel p r).1.Done n := fun h => hn (done_registerParcel.mp h)
    rw [owedRuns_of_not_done hn, owedRuns_of_not_done hn']

/-- One call keeps the log in step with the states. -/
theorem log_count_run (c : Call F) (h : r.log.count n = r.owedRuns n) :
    (c.run r).1.log.count n = (c.run r).1.owedRuns n := by
  cases c with
  | register p =>
      rw [Call.run, log_registerParcel, owedRuns_registerParcel, h]
  | inherit m =>
      obtain ⟨evs, hrun⟩ := exists_loadRun m r
      rw [Call.run, hrun.log, hrun.owedRuns, h]
  | start m =>
      obtain ⟨evs, hrun⟩ := exists_startRun m r
      have hcount := hrun.log_count n
      rw [Call.run]
      omega

/-- **Initializers run exactly once.**  After every run, whichever calls fail, the initializer of a
parcel has run once if the parcel is done, and not at all otherwise. -/
theorem log_count_after (calls : List (Call F)) (n : String) :
    (after calls).log.count n =
      if (after calls).hasInit n = true ∧ (after calls).state? n = some .parcelDone then 1
      else 0 := by
  show (after calls).log.count n = (after calls).owedRuns n
  induction calls using List.reverseRecOn with
  | nil => rfl
  | append_singleton calls c ih =>
      rw [after_append_singleton]
      exact log_count_run c ih

end Runtime

end ClassTables
