import ClassTables.Proofs.Cycles
import ClassTables.Proofs.Initializers
/-!
# Prerequisites are initialized first

A walk passes over a prerequisite that counts as done.  It may count as done for two reasons: it has
been finished, in this call or an earlier one, or it is being started further up, and then it leads
back to the parcel at hand.  Nothing else is marked, not even after calls that failed, so at every
moment what is done is *finished* or leads to the parcel that is started next
(`Runtime.FinishedUpTo`).

Every rule keeps that (`StartRun.prereqsMet`).  So when the initializer of a parcel runs, those of
its prerequisites have run, but for the ones that need the parcel themselves; and where there is no
cycle, so have those of everything that is reached (`prereqs_initialized_first`).
-/

namespace ClassTables

open Relation

namespace Runtime

variable {F : Type} {r r₁ r₂ r' : Runtime F} {n k q : String} {ns ms past : List String}
  {evs : List BootEvent} {res : Except BootstrapError Unit}

/-! ## The log of a walk -/

theorem LoadRun.initializedBy_eq_nil (h : LoadRun ns r evs r' res) : initializedBy evs = [] := by
  induction h with
  | nil => rfl
  | unknown _ => rfl
  | cyclic _ _ => rfl
  | known _ _ _ ih => exact ih
  | failed _ _ _ ih => exact ih
  | refused _ _ _ _ ih => exact ih
  | loaded _ _ _ _ _ ih ih' =>
      rw [initializedBy_append, ih]
      exact ih'

/-- The events of an initializer name the parcel, if it has one. -/
theorem of_initializedBy_initEvents {p : ParcelSpec F} {pre post : List String} {m : String}
    (h : initializedBy p.initEvents = pre ++ m :: post) :
    p.hasInit = true ∧ pre = [] ∧ m = p.name := by
  rw [ParcelSpec.initEvents] at h
  split at h
  · next hinit =>
      have hone : initializedBy [.init p.name] = [p.name] := rfl
      rw [hone, List.singleton_eq_append_iff] at h
      simp_all
  · simp [initializedBy] at h

theorem log_runInit (p : ParcelSpec F) :
    (runInit p r).log = r.log ++ initializedBy p.initEvents := by
  rw [runInit, ParcelSpec.initEvents]
  split
  · rfl
  · exact (List.append_nil _).symm

/-- The log grows by the initializers that run. -/
theorem StartRun.log (h : StartRun ns r evs r' res) : r'.log = r.log ++ initializedBy evs := by
  induction h with
  | nil => exact (List.append_nil _).symm
  | unknown _ => exact (List.append_nil _).symm
  | known _ _ _ ih => exact ih
  | notLoaded _ _ hload => rw [hload.log, hload.initializedBy_eq_nil, List.append_nil]
  | @failed n _ r r₁ r₂ _ _ _ _ _ _ hload _ ih =>
      have hlog : (r₂.setState n .inheritanceDone).log = r₂.log := rfl
      have hmark : (r₁.setState n .parcelDone).log = r.log := hload.log
      rw [hlog, ih, hmark, initializedBy_append, hload.initializedBy_eq_nil, List.nil_append]
  | @started n _ r r₁ _ _ _ _ _ _ _ _ _ hload _ _ ih ih' =>
      have hmark : (r₁.setState n .parcelDone).log = r.log := hload.log
      rw [ih', log_runInit, ih, hmark]
      simp only [initializedBy_append, hload.initializedBy_eq_nil, List.nil_append,
        List.append_assoc]

/-! ## What is done is finished, or leads on -/

/-- Nothing remains to be done for the parcel: it is initialized, and its prerequisites are done,
cycles apart. -/
structure Finished (r : Runtime F) (k : String) : Prop where
  init : r.Initialized k
  back : ∀ x ∈ r.prereqsOf k, r.Done x ∨ r.Reaches x k

/-- What is done is finished, except for what waits for the given parcel. -/
def FinishedUpTo (r : Runtime F) (n : String) : Prop :=
  ∀ k, r.Done k → r.Finished k ∨ r.Reaches k n

theorem Sound.finishedUpTo (h : Sound r) : r.FinishedUpTo n :=
  fun k hk => Or.inl ⟨h.init k hk, h.back k hk⟩

theorem Initialized.mem_log (h : r.Initialized k) (hk : r.hasInit k = true) : k ∈ r.log := by
  obtain ⟨p, hp, hinit⟩ := (Option.any_eq_true _ _).mp hk
  exact h p hp hinit

theorem Finished.mono (hspec : r'.spec? = r.spec?) (hdone : ∀ k, r.Done k → r'.Done k)
    (hlog : r.log ⊆ r'.log) (h : r.Finished k) : r'.Finished k where
  init := h.init.of_log hspec hlog
  back := by
    intro x hx
    rw [prereqsOf_eq_of_spec? hspec] at hx
    rw [Reaches, prereqsOf_eq_of_spec? hspec]
    exact (h.back x hx).imp_left (hdone x)

theorem Finished.mark (hm : Marked n r r₁) (h : r.Finished k) : r₁.Finished k := by
  apply h.mono hm.spec?
  · exact fun x hx => (hm.done x).mpr (Or.inl hx)
  · exact hm.log ▸ List.Subset.refl _

theorem FinishedUpTo.of_progress (hp : Progress ms r r') (h : r.FinishedUpTo n) :
    r'.FinishedUpTo n := by
  intro k hk
  rw [hp.reaches]
  by_cases hk' : r.Done k
  · exact (h k hk').imp_left (Finished.mono hp.spec? hp.done hp.log)
  · refine Or.inl ⟨hp.init k hk hk', fun x hx => ?_⟩
    rw [hp.prereqsOf] at hx
    rw [hp.reaches]
    exact hp.back k hk hk' x hx

/-- When a parcel is marked, it leads to its prerequisites, and so does what leads to it. -/
theorem FinishedUpTo.mark (hm : Marked n r r₁) (hq : q ∈ r.prereqsOf n) (h : r.FinishedUpTo n) :
    r₁.FinishedUpTo q := by
  intro k hk
  rw [hm.reaches]
  rcases (hm.done k).mp hk with hk | rfl
  · exact (h k hk).imp (Finished.mark hm) fun hreach => hreach.tail hq
  · exact Or.inr (.single hq)

/-- Below a parcel that is marked, what is done is finished or leads to that parcel. -/
theorem FinishedUpTo.below (hm : Marked n r r₁) (hp : Progress ms r₁ r₂) (h : r.FinishedUpTo n) :
    r₂.FinishedUpTo n := by
  apply FinishedUpTo.of_progress hp
  intro k hk
  rw [hm.reaches]
  rcases (hm.done k).mp hk with hk | rfl
  · exact (h k hk).imp_left (Finished.mark hm)
  · exact Or.inr .refl

/-! ## The moment of an initializer -/

/-- What holds of the prerequisites of a parcel when the initializers in `log` have run. -/
structure PrereqsMet (r : Runtime F) (log : List String) (n : String) : Prop where
  /-- A prerequisite whose initializer has not run needs the parcel itself. -/
  direct : ∀ q ∈ r.prereqsOf n,
    r.Known q ∧ ((r.hasInit q = true → q ∈ log) ∨ r.Reaches q n)
  /-- Where there is no cycle, the initializers of all that is reached have run. -/
  reached : (∀ k, r.Reaches n k → ¬ TransGen (fun a b => b ∈ r.prereqsOf a) k k) →
    ∀ q, TransGen (fun a b => b ∈ r.prereqsOf a) n q →
      r.Known q ∧ (r.hasInit q = true → q ∈ log)

theorem PrereqsMet.of_specs (hspecs : r'.specs = r.specs) (h : r'.PrereqsMet past n) :
    r.PrereqsMet past n := by
  have hprereqs := prereqsOf_eq_of_spec? (spec?_of_specs hspecs)
  obtain ⟨hdirect, hreached⟩ := h
  simp only [known_of_specs hspecs, reaches_of_specs hspecs, hasInit_eq_of_specs hspecs,
    hprereqs] at hdirect hreached
  exact ⟨hdirect, hreached⟩

/-- Off cycles, what a parcel needs is done when its prerequisites are. -/
theorem FinishedUpTo.done_of_transGen (h : r.FinishedUpTo n) (hdone : ∀ q ∈ r.prereqsOf n, r.Done q)
    (hacyc : ∀ k, r.Reaches n k → ¬ TransGen (fun a b => b ∈ r.prereqsOf a) k k)
    (hq : TransGen (fun a b => b ∈ r.prereqsOf a) n q) : r.Done q := by
  induction hq with
  | single hnq => exact hdone _ hnq
  | @tail k x hnk hkx ih =>
      rcases h k ih with hfin | hback
      · refine (hfin.back x hkx).resolve_right fun hxk => ?_
        exact hacyc k hnk.to_reflTransGen (.head' hkx hxk)
      · exact absurd (hnk.trans_left hback) (hacyc n .refl)

/-- **The prerequisites of a parcel are met when they are done.** -/
theorem FinishedUpTo.prereqsMet (h : r.FinishedUpTo n) (hdone : ∀ q ∈ r.prereqsOf n, r.Done q) :
    r.PrereqsMet r.log n where
  direct := by
    intro q hq
    refine ⟨(hdone q hq).spec?_isSome, ?_⟩
    exact (h q (hdone q hq)).imp_left fun hfin => hfin.init.mem_log
  reached := by
    intro hacyc q hq
    have hq' : r.Done q := h.done_of_transGen hdone hacyc hq
    refine ⟨hq'.spec?_isSome, ?_⟩
    rcases h q hq' with hfin | hback
    · exact hfin.init.mem_log
    · exact absurd (hq.trans_left hback) (hacyc n .refl)

theorem StartRun.starts (h : StartRun ns r evs r' res) : Starts ns r (r', res) := by
  rw [← h.eq]
  exact starts_forEach starts_bootstrapParcel ns r

section Below

variable {p : ParcelEntry F} {pre : List String} {m : String}

theorem LoadRun.marked_done (hp : r.parcel? n = some p) (h : LoadRun [n] r evs r₁ res) :
    Marked n r (r₁.setState n .parcelDone) := by
  have hkept := kept_bootstrapInheritance n r
  rw [h.eq_bootstrap] at hkept
  exact marked_setState hkept (known_of_parcel? hp)

/-- What initializers find below a marked parcel, they find without the mark. -/
theorem LoadRun.prereqsMet_below (hp : r.parcel? n = some p) (h : LoadRun [n] r evs r₁ res)
    (hn : r.FinishedUpTo n)
    (hbelow : (∀ q ∈ p.spec.prereqs, (r₁.setState n .parcelDone).FinishedUpTo q) →
      (r₁.setState n .parcelDone).hasInit m = true ∧
        (r₁.setState n .parcelDone).PrereqsMet ((r₁.setState n .parcelDone).log ++ pre) m) :
    r.hasInit m = true ∧ r.PrereqsMet (r.log ++ pre) m := by
  have hm := h.marked_done hp
  have hspecs : (r₁.setState n .parcelDone).specs = r.specs := (specs_setState _).trans h.specs
  obtain ⟨hinit, hmet⟩ := hbelow fun q hq => hn.mark hm (prereqsOf_of_parcel? hp ▸ hq)
  rw [hm.log] at hmet
  exact ⟨hasInit_eq_of_specs hspecs m ▸ hinit, hmet.of_specs hspecs⟩

/-- When all prerequisites of a parcel have been started, they are met. -/
theorem StartRun.prereqsMet_own (hp : r.parcel? n = some p) (hload : LoadRun [n] r evs r₁ (.ok ()))
    {evs' : List BootEvent}
    (h : StartRun p.spec.prereqs (r₁.setState n .parcelDone) evs' r₂ (.ok ()))
    (hn : r.FinishedUpTo n) : r.PrereqsMet (r.log ++ initializedBy evs') n := by
  have hm := hload.marked_done hp
  have hspecs : r₂.specs = r.specs := h.specs.trans ((specs_setState _).trans hload.specs)
  obtain ⟨hprog, hcomp⟩ := h.starts
  have hdone : ∀ q ∈ r₂.prereqsOf n, r₂.Done q := by
    rw [prereqsOf_eq_of_spec? (spec?_of_specs hspecs), prereqsOf_of_parcel? hp]
    exact (hcomp rfl).all
  have hmet := (hn.below hm hprog).prereqsMet hdone
  rw [h.log, hm.log] at hmet
  exact hmet.of_specs hspecs

end Below

/-- **Every initializer that runs while parcels are started finds its prerequisites met.** -/
theorem StartRun.prereqsMet (h : StartRun ns r evs r' res) (hup : ∀ n ∈ ns, r.FinishedUpTo n) :
    ∀ pre m post, initializedBy evs = pre ++ m :: post →
      r.hasInit m = true ∧ r.PrereqsMet (r.log ++ pre) m := by
  induction h with
  | nil =>
      intro pre m post hevs
      simp [initializedBy] at hevs
  | unknown _ =>
      intro pre m post hevs
      simp [initializedBy] at hevs
  | known _ _ _ ih => exact ih fun k hk => hup k (List.mem_cons_of_mem _ hk)
  | notLoaded _ _ hload =>
      intro pre m post hevs
      rw [hload.initializedBy_eq_nil] at hevs
      simp at hevs
  | failed hp _ hload _ ih =>
      intro pre m post hevs
      rw [initializedBy_append, hload.initializedBy_eq_nil, List.nil_append] at hevs
      exact hload.prereqsMet_below hp (hup _ List.mem_cons_self) fun hbelow =>
        ih hbelow pre m post hevs
  | @started n ns r r₁ r₂ r' p evs evs' evs'' res hp hs hload hsub _ ih ih' =>
      intro pre m post hevs
      have hn := hup n List.mem_cons_self
      have hone := StartRun.started hp hs hload hsub .nil
      simp only [initializedBy_append, hload.initializedBy_eq_nil, List.nil_append] at hevs
      -- the initializer is one below the parcel, its own, or one of the parcels after it
      rcases append_eq_append_cons hevs with ⟨post', hfront, -⟩ | ⟨pre', hback, rfl⟩
      · rcases append_eq_append_cons hfront with ⟨post'', hbelow, -⟩ | ⟨pre', hown, rfl⟩
        · exact hload.prereqsMet_below hp hn fun hup' => ih hup' pre m post'' hbelow
        · obtain ⟨hinit, rfl, rfl⟩ := of_initializedBy_initEvents hown
          rw [spec?_name (spec?_of_parcel? hp), List.append_nil]
          refine ⟨?_, hsub.prereqsMet_own hp hload hn⟩
          rw [hasInit, spec?_of_parcel? hp, Option.any_some, hinit]
      · have hrest : ∀ k ∈ ns, (runInit p.spec r₂).FinishedUpTo k := fun k hk =>
          (hup k (List.mem_cons_of_mem _ hk)).of_progress hone.starts.1
        obtain ⟨hinit, hmet⟩ := ih' hrest pre' m post hback
        have hlog : (runInit p.spec r₂).log =
            r.log ++ (initializedBy evs' ++ initializedBy p.spec.initEvents) := by
          have hmark : (r₁.setState n .parcelDone).log = r.log := hload.log
          rw [log_runInit, hsub.log, hmark, List.append_assoc]
        rw [hlog, List.append_assoc] at hmet
        exact ⟨hasInit_eq_of_specs hone.specs m ▸ hinit, hmet.of_specs hone.specs⟩

/-! ## Runs -/

/-- **Prerequisites are initialized first,** after any calls and in any call, whether it succeeds or
fails.  A call appends to the log, and when the initializer of a parcel runs, each prerequisite is
registered, and its initializer has run or it needs the parcel itself.  If nothing that the parcel
needs is on a cycle, then the initializers of all that it needs have run. -/
theorem prereqs_initialized_first (calls : List (Call F)) (c : Call F) :
    ∃ new, (c.run (after calls)).1.log = (after calls).log ++ new ∧
      ∀ pre n post, new = pre ++ n :: post → (after calls).hasInit n = true ∧
        (after calls).PrereqsMet ((after calls).log ++ pre) n := by
  cases c with
  | register p =>
      refine ⟨[], ?_, ?_⟩
      · rw [Call.run, log_registerParcel, List.append_nil]
      · intro pre n post h
        simp at h
  | inherit n =>
      obtain ⟨evs, hrun⟩ := exists_loadRun n (after calls)
      refine ⟨[], ?_, ?_⟩
      · rw [Call.run, hrun.log, List.append_nil]
      · intro pre n post h
        simp at h
  | start n =>
      obtain ⟨evs, hrun⟩ := exists_startRun n (after calls)
      exact ⟨initializedBy evs, hrun.log, hrun.prereqsMet fun k _ => (sound_after calls).finishedUpTo⟩

/-- `P` and `Q` need each other, and `R` needs `X`, which is missing when `P` is started first: `Q` is
finished then, `P` and `R` are taken back. -/
def startedTwice : List (Call String) :=
  [.register { name := "P", prereqs := ["Q", "R"], hasInit := true },
   .register { name := "Q", prereqs := ["P"], hasInit := true },
   .register { name := "R", prereqs := ["X"], hasInit := true },
   .start "P",
   .register { name := "X", hasInit := true }]

theorem startedTwice_prereqs_met :
    ((Call.start "P").run (after startedTwice)).1.log = ["Q", "X", "R", "P"] ∧
      (after startedTwice).PrereqsMet ["Q", "X"] "R" ∧
        (after startedTwice).PrereqsMet ["Q", "X", "R"] "P" ∧
          ((after startedTwice).hasInit "X" = true → "X" ∈ ["Q", "X"]) := by
  obtain ⟨new, hlog, hmet⟩ := prereqs_initialized_first startedTwice (.start "P")
  have hbefore : (after startedTwice).log = ["Q"] := by decide +kernel
  have hafter : ((Call.start "P").run (after startedTwice)).1.log = ["Q", "X", "R", "P"] := by
    decide +kernel
  have hR : (after startedTwice).prereqsOf "R" = ["X"] := by decide +kernel
  have hX : (after startedTwice).prereqsOf "X" = [] := by decide +kernel
  rw [hafter, hbefore] at hlog
  have hnew : ["Q"] ++ ["X", "R", "P"] = ["Q"] ++ new := hlog
  obtain rfl := List.append_cancel_left hnew
  obtain ⟨-, hmetR⟩ := hmet ["X"] "R" ["P"] rfl
  obtain ⟨-, hmetP⟩ := hmet ["X", "R"] "P" [] rfl
  rw [hbefore] at hmetR hmetP
  refine ⟨hafter, hmetR, hmetP, (hmetR.reached ?_ "X" (.single ?_)).2⟩
  · -- below `R` there is only `X`, which needs nothing
    have hend : ∀ k, (after startedTwice).Reaches "X" k → "X" = k := by
      intro k hk
      refine hk.cases_head.resolve_right ?_
      rintro ⟨m, hm, -⟩
      rw [hX] at hm
      cases hm
    intro k hk hcycle
    obtain ⟨q, hkq, hqk⟩ := TransGen.head'_iff.mp hcycle
    rcases hk.cases_head with rfl | ⟨m, hm, hmk⟩
    · rw [hR, List.mem_singleton] at hkq
      exact absurd (hend _ (hkq ▸ hqk)) (by decide)
    · rw [hR, List.mem_singleton] at hm
      rw [← hend k (hm ▸ hmk), hX] at hkq
      cases hkq
  · rw [hR]
    exact List.mem_cons_self

end Runtime

end ClassTables
