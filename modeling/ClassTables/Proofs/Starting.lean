import ClassTables.Proofs.Runtime
import Mathlib.Data.List.Induction
/-!
# Starting a parcel starts what it needs

A parcel counts as done while its prerequisites are started, and a fault takes that mark back.  So a
parcel on a cycle of prerequisites may have been completed on the strength of a mark that did not
last, and later calls take it for done without looking at its prerequisites again.

Here: what one call of `startTo` does, for success and for failure (`starts_startTo`); what every
run therefore keeps true (`sound_after`, `closed_after`); and when a successful start leaves
everything it needs started.
-/

namespace ClassTables

namespace Runtime

variable {F : Type} {r r₁ r₂ r' : Runtime F} {n : String} {ns ms : List String}

/-! ## What a call does -/

/-- What starting the given parcels has done, successful or not. -/
structure Progress (ns : List String) (r r' : Runtime F) : Prop where
  spec? : r'.spec? = r.spec?
  done : ∀ k, r.Done k → r'.Done k
  log : r.log ⊆ r'.log
  pending : ∀ k, r'.Done k → ¬ r.Done k → ∃ n ∈ ns, r.Pending n k
  init : ∀ k, r'.Done k → ¬ r.Done k → r'.Initialized k
  /-- A prerequisite that is not done was being started when the parcel was completed. -/
  back : ∀ k, r'.Done k → ¬ r.Done k → ∀ x ∈ r.prereqsOf k, r'.Done x ∨ r.Reaches x k

/-- What starting the given parcels has done, if it was successful. -/
structure Complete (ns : List String) (r r' : Runtime F) : Prop where
  all : ∀ n ∈ ns, r'.Done n
  closed : ∀ k, r'.Done k → ¬ r.Done k → ∀ x ∈ r.prereqsOf k, r'.Done x

/-- The outcome of starting the given parcels. -/
def Starts (ns : List String) (r : Runtime F) (out : Runtime F × Except BootstrapError Unit) :
    Prop :=
  Progress ns r out.1 ∧ (out.2 = .ok () → Complete ns r out.1)

theorem Progress.prereqsOf (h : Progress ns r r') : r'.prereqsOf = r.prereqsOf :=
  prereqsOf_eq_of_spec? h.spec?

theorem Progress.reaches (h : Progress ns r r') : r'.Reaches = r.Reaches := by
  rw [Reaches, Reaches, h.prereqsOf]

/-- What starts nothing makes any progress. -/
theorem Progress.of_kept (h : Kept r r') : Progress ns r r' where
  spec? := h.spec?
  done := fun k hk => (h.done k).mpr hk
  log := h.log ▸ List.Subset.refl _
  pending := fun k hk hn => absurd ((h.done k).mp hk) hn
  init := fun k hk hn => absurd ((h.done k).mp hk) hn
  back := fun k hk hn => absurd ((h.done k).mp hk) hn

theorem Progress.trans (h : Progress ns r r₁) (h' : Progress ms r₁ r₂) :
    Progress (ns ++ ms) r r₂ where
  spec? := h'.spec?.trans h.spec?
  done := fun k hk => h'.done k (h.done k hk)
  log := fun _ hx => h'.log (h.log hx)
  pending := by
    intro k hk hn
    by_cases hmid : r₁.Done k
    · obtain ⟨m, hm, hpend⟩ := h.pending k hmid hn
      exact ⟨m, List.mem_append_left _ hm, hpend⟩
    · obtain ⟨m, hm, hpend⟩ := h'.pending k hk hmid
      exact ⟨m, List.mem_append_right _ hm, hpend.of_done h.prereqsOf h.done⟩
  init := by
    intro k hk hn
    by_cases hmid : r₁.Done k
    · exact (h.init k hmid hn).of_log h'.spec? h'.log
    · exact h'.init k hk hmid
  back := by
    intro k hk hn x hx
    by_cases hmid : r₁.Done k
    · exact (h.back k hmid hn x hx).imp_left (h'.done x)
    · rw [← h.prereqsOf] at hx
      rw [← h.reaches]
      exact h'.back k hk hmid x hx

theorem Complete.trans (hp : Progress ns r r₁) (hp' : Progress ms r₁ r₂) (h : Complete ns r r₁)
    (h' : Complete ms r₁ r₂) : Complete (ns ++ ms) r r₂ where
  all := by
    intro n hn
    rcases List.mem_append.mp hn with hn | hn
    · exact hp'.done n (h.all n hn)
    · exact h'.all n hn
  closed := by
    intro k hk hn x hx
    by_cases hmid : r₁.Done k
    · exact hp'.done x (h.closed k hmid hn x hx)
    · exact h'.closed k hk hmid x (hp.prereqsOf ▸ hx)

theorem Starts.of_error (h : Progress ns r r') (e : BootstrapError) :
    Starts ns r (r', .error e) := by
  refine ⟨h, ?_⟩
  intro hok
  cases hok

/-- **Starting parcels one after the other.** -/
theorem starts_forEach {step : String → RuntimeStep F} (hstep : ∀ n r, Starts [n] r (step n r)) :
    ∀ (ns : List String) (r : Runtime F), Starts ns r (forEach step ns r)
  | [], r => by
      refine ⟨Progress.of_kept (Kept.refl r), fun _ => ⟨?_, ?_⟩⟩
      · intro n hn
        cases hn
      · intro k hk hn
        exact absurd hk hn
  | n :: ns, r => by
      have h := hstep n r
      rw [forEach]
      generalize step n r = out at h ⊢
      rcases out with ⟨r₁, e | _⟩
      · have hrest : Progress ns r₁ r₁ := Progress.of_kept (Kept.refl r₁)
        exact Starts.of_error (h.1.trans hrest) e
      · obtain ⟨hprog, hcomp⟩ := starts_forEach hstep ns r₁
        refine ⟨h.1.trans hprog, fun hok => ?_⟩
        exact Complete.trans h.1 hprog (h.2 rfl) (hcomp hok)

/-! ## Marking a parcel while its prerequisites are started -/

/-- The runtime in which one more parcel counts as done. -/
structure Marked (n : String) (r r₁ : Runtime F) : Prop where
  spec? : r₁.spec? = r.spec?
  done : ∀ k, r₁.Done k ↔ r.Done k ∨ k = n
  log : r₁.log = r.log

theorem marked_setState (hk : Kept r r₁) (hn : (r.spec? n).isSome = true) :
    Marked n r (r₁.setState n .parcelDone) where
  spec? := (spec?_setState _).trans hk.spec?
  done := by
    intro k
    rw [done_setState_parcelDone, hk.done, hk.spec?]
    exact or_congr_right (and_iff_left hn)
  log := hk.log

section Marked

variable (hm : Marked n r r₁) (hn : ¬ r.Done n) (hp : Progress (r.prereqsOf n) r₁ r₂)

include hm

theorem Marked.prereqsOf : r₁.prereqsOf = r.prereqsOf := prereqsOf_eq_of_spec? hm.spec?

theorem Marked.reaches : r₁.Reaches = r.Reaches := by
  rw [Reaches, Reaches, hm.prereqsOf]

/-- What is newly done is the marked parcel or newly done since it was marked. -/
theorem Marked.eq_or_not_done {k : String} (hk : ¬ r.Done k) : k = n ∨ ¬ r₁.Done k := by
  by_cases h : r₁.Done k
  · exact Or.inl (((hm.done k).mp h).resolve_left hk)
  · exact Or.inr h

theorem Marked.closed (hc : Complete (r.prereqsOf n) r₁ r₂) :
    ∀ k, r₂.Done k → ¬ r.Done k → ∀ x ∈ r.prereqsOf k, r₂.Done x := by
  intro k hk hk' x hx
  rcases hm.eq_or_not_done hk' with rfl | hk'
  · exact hc.all x hx
  · exact hc.closed k hk hk' x (hm.prereqsOf ▸ hx)

include hn hp

/-- What is newly done below the marked parcel was pending below it. -/
theorem Marked.pending {k : String} (hk : r₂.Done k) (hk' : ¬ r₁.Done k) : r.Pending n k := by
  obtain ⟨m, hmem, hpend⟩ := hp.pending k hk hk'
  have hpend' := hpend.of_done hm.prereqsOf fun j hj => (hm.done j).mpr (Or.inl hj)
  exact hpend'.head hn hmem

/-- If a prerequisite fails, the mark is taken back and the rest stays. -/
theorem Marked.failed : Progress [n] r (r₂.setState n .inheritanceDone) := by
  have hdone : ∀ k, (r₂.setState n .inheritanceDone).Done k ↔ r₂.Done k ∧ k ≠ n := fun k =>
    done_setState_of_ne (by decide)
  have hnew : ∀ k, (r₂.setState n .inheritanceDone).Done k → ¬ r.Done k →
      r₂.Done k ∧ ¬ r₁.Done k := by
    intro k hk hk'
    obtain ⟨hk, hne⟩ := (hdone k).mp hk
    exact ⟨hk, fun h => ((hm.done k).mp h).elim hk' hne⟩
  have hspec : (r₂.setState n .inheritanceDone).spec? = r₂.spec? := spec?_setState _
  refine ⟨hspec.trans (hp.spec?.trans hm.spec?), ?_, ?_, ?_, ?_, ?_⟩
  · intro k hk
    exact (hdone k).mpr ⟨hp.done k ((hm.done k).mpr (Or.inl hk)), fun h => hn (h ▸ hk)⟩
  · exact hm.log ▸ hp.log
  · intro k hk hk'
    obtain ⟨hk, hk'⟩ := hnew k hk hk'
    exact ⟨n, List.mem_cons_self, hm.pending hn hp hk hk'⟩
  · intro k hk hk'
    obtain ⟨hk, hk'⟩ := hnew k hk hk'
    exact (hp.init k hk hk').of_log hspec (List.Subset.refl _)
  · intro k hk hk' x hx
    obtain ⟨hk, hk'⟩ := hnew k hk hk'
    by_cases hxn : x = n
    · -- the parcel that is taken back leads to what was completed below it
      exact Or.inr (hxn ▸ (hm.pending hn hp hk hk').reaches)
    · rw [← hm.reaches]
      refine (hp.back k hk hk' x (hm.prereqsOf ▸ hx)).imp_left fun h => ?_
      exact (hdone x).mpr ⟨h, hxn⟩

/-- If all prerequisites are done, the parcel and everything newly done below it is complete. -/
theorem Marked.finished {p : ParcelSpec F} (hspec : r.spec? n = some p)
    (hc : Complete (r.prereqsOf n) r₁ r₂) :
    Progress [n] r (runInit p r₂) ∧ Complete [n] r (runInit p r₂) := by
  have hspec₂ : r₂.spec? = r.spec? := hp.spec?.trans hm.spec?
  constructor
  · refine ⟨(spec?_runInit p).trans hspec₂, ?_, ?_, ?_, ?_, ?_⟩
    · intro k hk
      rw [done_runInit]
      exact hp.done k ((hm.done k).mpr (Or.inl hk))
    · intro x hx
      rw [← hm.log] at hx
      exact log_subset_runInit p (hp.log hx)
    · intro k hk hk'
      rw [done_runInit] at hk
      rcases hm.eq_or_not_done hk' with rfl | hk'
      · exact ⟨k, List.mem_cons_self, hk', .refl⟩
      · exact ⟨n, List.mem_cons_self, hm.pending hn hp hk hk'⟩
    · intro k hk hk'
      rw [done_runInit] at hk
      rcases hm.eq_or_not_done hk' with rfl | hk'
      · exact initialized_runInit (hspec₂ ▸ hspec)
      · exact (hp.init k hk hk').of_log (spec?_runInit p) (log_subset_runInit p)
    · intro k hk hk' x hx
      rw [done_runInit] at hk ⊢
      exact Or.inl (hm.closed hc k hk hk' x hx)
  · constructor
    · intro k hk
      rw [List.mem_singleton.mp hk, done_runInit]
      exact hp.done n ((hm.done n).mpr (Or.inr rfl))
    · intro k hk hk' x hx
      rw [done_runInit] at hk ⊢
      exact hm.closed hc k hk hk' x hx

end Marked

/-! ## Starting one parcel -/

/-- **What one call does,** whatever comes of it. -/
theorem starts_startTo : ∀ (depth : Nat) (n : String) (r : Runtime F),
    Starts [n] r (startTo depth n r)
  | 0, n, r => Starts.of_error (Progress.of_kept (Kept.refl r)) _
  | depth + 1, n, r => by
      rw [startTo]
      cases hp : r.parcel? n with
      | none => exact Starts.of_error (Progress.of_kept (Kept.refl r)) _
      | some p =>
          dsimp only
          have hdone : r.Done n ↔ p.state = .parcelDone := by
            rw [Done, state?, hp, Option.map_some, Option.some.injEq]
          by_cases hs : p.state = .parcelDone
          · rw [if_pos hs]
            refine ⟨Progress.of_kept (Kept.refl r), fun _ => ⟨?_, fun k hk hn => absurd hk hn⟩⟩
            intro k hk
            rw [List.mem_singleton.mp hk]
            exact hdone.mpr hs
          · rw [if_neg hs]
            have hn : ¬ r.Done n := fun h => hs (hdone.mp h)
            have hspec : r.spec? n = some p.spec := by rw [spec?, hp, Option.map_some]
            have hprereqs : r.prereqsOf n = p.spec.prereqs := by
              rw [Runtime.prereqsOf, hspec, Option.map_some, Option.getD_some]
            have hkept := kept_bootstrapInheritance n r
            generalize bootstrapInheritance n r = out at hkept ⊢
            rcases out with ⟨r₁, e | _⟩
            · exact Starts.of_error (Progress.of_kept hkept) e
            · -- from here on `n` counts as done
              have hmark : Marked n r (r₁.setState n .parcelDone) :=
                marked_setState hkept (by rw [hspec]; rfl)
              have hstarts := starts_forEach (starts_startTo depth) p.spec.prereqs
                (r₁.setState n .parcelDone)
              dsimp only
              generalize forEach (startTo depth) p.spec.prereqs (r₁.setState n .parcelDone) = out
                at hstarts ⊢
              rw [← hprereqs] at hstarts
              rcases out with ⟨r₂, e | _⟩
              · exact Starts.of_error (hmark.failed hn hstarts.1) e
              · have hfin := hmark.finished hn hstarts.1 hspec (hstarts.2 rfl)
                exact ⟨hfin.1, fun _ => hfin.2⟩

theorem starts_bootstrapParcel (n : String) (r : Runtime F) :
    Starts [n] r (bootstrapParcel n r) := starts_startTo _ n r

/-- **A successful start makes exactly the pending parcels done.** -/
theorem done_iff_of_start (h : bootstrapParcel n r = (r', .ok ())) (k : String) :
    r'.Done k ↔ r.Done k ∨ r.Pending n k := by
  obtain ⟨hprog, hcomp⟩ := starts_bootstrapParcel n r
  rw [h] at hprog hcomp
  have hcomp := hcomp rfl
  constructor
  · intro hk
    by_cases hk' : r.Done k
    · exact Or.inl hk'
    · obtain ⟨m, hm, hpend⟩ := hprog.pending k hk hk'
      rw [List.mem_singleton] at hm
      exact Or.inr (hm ▸ hpend)
  · rintro (hk | ⟨hn, hpath⟩)
    · exact hprog.done k hk
    · -- along the path every parcel is newly done, so its prerequisites are done
      have hpath' : r'.Done k ∧ ¬ r.Done k := by
        induction hpath with
        | refl => exact ⟨hcomp.all n List.mem_cons_self, hn⟩
        | tail _ hstep ih => exact ⟨hcomp.closed _ ih.1 ih.2 _ hstep.1, hstep.2⟩
      exact hpath'.1

/-! ## Runs -/

/-- What every run keeps true. -/
structure Sound (r : Runtime F) : Prop where
  /-- What is done has been initialized. -/
  init : ∀ k, r.Done k → r.Initialized k
  /-- What is done needs only what is done, cycles apart. -/
  back : ∀ k, r.Done k → ∀ x ∈ r.prereqsOf k, r.Done x ∨ r.Reaches x k

/-- What is done needs only what is done. -/
def Closed (r : Runtime F) : Prop := ∀ k, r.Done k → ∀ x ∈ r.prereqsOf k, r.Done x

theorem Sound.of_progress (h : Sound r) (hp : Progress ns r r') : Sound r' where
  init := by
    intro k hk
    by_cases hk' : r.Done k
    · exact (h.init k hk').of_log hp.spec? hp.log
    · exact hp.init k hk hk'
  back := by
    intro k hk x hx
    rw [hp.prereqsOf] at hx
    rw [hp.reaches]
    by_cases hk' : r.Done k
    · exact (h.back k hk' x hx).imp_left (hp.done x)
    · exact hp.back k hk hk' x hx

theorem Closed.of_complete (h : Closed r) (hp : Progress ns r r') (hc : Complete ns r r') :
    Closed r' := by
  intro k hk x hx
  rw [hp.prereqsOf] at hx
  by_cases hk' : r.Done k
  · exact hp.done x (h k hk' x hx)
  · exact hc.closed k hk hk' x hx

section Register

variable {p : ParcelSpec F}

/-- The prerequisites of a registered parcel stay as they are. -/
theorem prereqsOf_registerParcel {k : String} (h : (r.spec? k).isSome = true) :
    (registerParcel p r).1.prereqsOf k = r.prereqsOf k := by
  obtain ⟨q, hq⟩ := Option.isSome_iff_exists.mp h
  rw [Runtime.prereqsOf, Runtime.prereqsOf, spec?_registerParcel hq, hq]

theorem Done.spec?_isSome {k : String} (h : r.Done k) : (r.spec? k).isSome = true := by
  rw [Done, state?, Option.map_eq_some_iff] at h
  obtain ⟨e, he, -⟩ := h
  rw [spec?, he]
  rfl

theorem Reaches.registerParcel {k m : String} (h : r.Reaches k m) :
    (registerParcel p r).1.Reaches k m := by
  refine h.lift id fun a b hab => ?_
  have hspec : (r.spec? a).isSome = true := by
    rw [Option.isSome_iff_ne_none]
    intro hnone
    rw [Runtime.prereqsOf, hnone] at hab
    cases hab
  show b ∈ (Runtime.registerParcel p r).1.prereqsOf a
  rw [prereqsOf_registerParcel hspec]
  exact hab

theorem Sound.registerParcel (h : Sound r) : Sound (registerParcel p r).1 where
  init := by
    intro k hk
    rw [done_registerParcel] at hk
    intro q hq hinit
    obtain ⟨q', hq'⟩ := Option.isSome_iff_exists.mp hk.spec?_isSome
    rw [spec?_registerParcel hq'] at hq
    cases hq
    rw [log_registerParcel]
    exact h.init k hk _ hq' hinit
  back := by
    intro k hk x hx
    rw [done_registerParcel] at hk ⊢
    rw [prereqsOf_registerParcel hk.spec?_isSome] at hx
    exact (h.back k hk x hx).imp_right Reaches.registerParcel

theorem Closed.registerParcel (h : Closed r) : Closed (registerParcel p r).1 := by
  intro k hk x hx
  rw [done_registerParcel] at hk ⊢
  rw [prereqsOf_registerParcel hk.spec?_isSome] at hx
  exact h k hk x hx

end Register

theorem not_done_after_nil {k : String} : ¬ (after ([] : List (Call F))).Done k := by
  intro h
  cases h

/-- **Every run keeps this true,** whichever calls fail. -/
theorem sound_after (calls : List (Call F)) : Sound (after calls) := by
  induction calls using List.reverseRecOn with
  | nil => exact ⟨fun k hk => absurd hk not_done_after_nil, fun k hk => absurd hk not_done_after_nil⟩
  | append_singleton calls c ih =>
      rw [after_append_singleton]
      cases c with
      | register p => exact ih.registerParcel
      | inherit n =>
          have hprog : Progress [] _ _ := .of_kept (kept_bootstrapInheritance n (after calls))
          exact ih.of_progress hprog
      | start n => exact ih.of_progress (starts_bootstrapParcel n _).1

/-- Every start in the run succeeds. -/
def StartsSucceed (calls : List (Call F)) : Prop :=
  ∀ before n rest, calls = before ++ .start n :: rest →
    (bootstrapParcel n (after before)).2 = .ok ()

theorem closed_after {calls : List (Call F)} (h : StartsSucceed calls) : Closed (after calls) := by
  induction calls using List.reverseRecOn with
  | nil => exact fun k hk => absurd hk not_done_after_nil
  | append_singleton calls c ih =>
      have hcalls : StartsSucceed calls := by
        intro before n rest heq
        refine h before n (rest ++ [c]) ?_
        rw [heq, List.append_assoc, List.cons_append]
      have ih := ih hcalls
      rw [after_append_singleton]
      cases c with
      | register p => exact ih.registerParcel
      | inherit n =>
          have hkept := kept_bootstrapInheritance n (after calls)
          have hcomp : Complete [] (after calls) (bootstrapInheritance n (after calls)).1 :=
            ⟨List.forall_mem_nil _, fun k hk hn => absurd ((hkept.done k).mp hk) hn⟩
          exact ih.of_complete (.of_kept hkept) hcomp
      | start n =>
          obtain ⟨hprog, hcomp⟩ := starts_bootstrapParcel n (after calls)
          exact ih.of_complete hprog (hcomp (h calls n [] rfl))

/-! ## When everything that is needed has been started -/

theorem Sound.started_iff_done (h : Sound r) {k : String} : r.Started k ↔ r.Done k := by
  rw [started_iff]
  exact and_iff_left_of_imp (h.init k)

/-- What a done parcel needs is done, if it needs nothing that is on a cycle. -/
theorem Sound.done_of_reaches (h : Sound r) (hn : r.Done n)
    (hacyc : ∀ k, r.Reaches n k → ¬ Relation.TransGen (fun a b => b ∈ r.prereqsOf a) k k)
    {k : String} (hk : r.Reaches n k) : r.Done k := by
  induction hk with
  | refl => exact hn
  | tail hpath hstep ih =>
      -- a prerequisite that leads back closes a cycle
      rcases h.back _ ih _ hstep with hdone | hback
      · exact hdone
      · exact absurd (Relation.TransGen.head' hstep hback) (hacyc _ hpath)

theorem Closed.done_of_reaches (h : Closed r) (hn : r.Done n) {k : String} (hk : r.Reaches n k) :
    r.Done k := by
  induction hk with
  | refl => exact hn
  | tail _ hstep ih => exact h _ ih _ hstep

/-- **When a successful start leaves everything it needs started:** exactly when every parcel that
is needed was done before or is reached along parcels that were not.  This is so if every start
before succeeded, and if no parcel that is needed is on a cycle of prerequisites. -/
theorem start_reaches_started_iff {calls : List (Call F)}
    (h : bootstrapParcel n (after calls) = (r', .ok ())) :
    ((∀ k, r'.Reaches n k → r'.Started k) ↔
      ∀ k, r'.Reaches n k → (after calls).Done k ∨ (after calls).Pending n k) ∧
      (StartsSucceed calls → ∀ k, r'.Reaches n k → r'.Started k) ∧
        ((∀ k, r'.Reaches n k → ¬ Relation.TransGen (fun a b => b ∈ r'.prereqsOf a) k k) →
          ∀ k, r'.Reaches n k → r'.Started k) := by
  have hdone := done_iff_of_start h
  obtain ⟨hprog, hcomp⟩ := starts_bootstrapParcel n (after calls)
  rw [h] at hprog hcomp
  have hcomp := hcomp rfl
  have hsound : Sound r' := (sound_after calls).of_progress hprog
  have hn : r'.Done n := hcomp.all n List.mem_cons_self
  -- at the end of a call, done is started
  refine ⟨?_, ?_, ?_⟩
  · refine forall₂_congr fun k _ => ?_
    rw [hsound.started_iff_done, hdone]
  · intro hstarts k hk
    have hclosed := (closed_after hstarts).of_complete hprog hcomp
    exact hsound.started_iff_done.mpr (hclosed.done_of_reaches hn hk)
  · intro hacyc k hk
    exact hsound.started_iff_done.mpr (hsound.done_of_reaches hn hacyc hk)

/-- A parcel and its prerequisite. -/
def twoParcels : List (Call String) :=
  [.register { name := "P", prereqs := ["Q"], hasInit := true },
   .register { name := "Q", hasInit := true }]

theorem twoParcels_started : ∃ r', bootstrapParcel "P" (after twoParcels) = (r', .ok ()) ∧
    ∀ k, r'.Reaches "P" k → r'.Started k := by
  have hok : bootstrapParcel "P" (after twoParcels) =
      ((bootstrapParcel "P" (after twoParcels)).1, .ok ()) := by decide +kernel
  refine ⟨_, hok, (start_reaches_started_iff hok).2.1 ?_⟩
  intro before n rest heq
  have hmem : Call.start n ∈ twoParcels := heq ▸ List.mem_append_right _ List.mem_cons_self
  simp [twoParcels] at hmem

/-- A start that fails on a cycle: `Q` is completed while `P` is being started, then `X` turns out
not to be registered and `P` is taken back. -/
def stranded : List (Call String) :=
  [.register { name := "P", prereqs := ["Q", "X"], hasInit := true },
   .register { name := "Q", prereqs := ["P"], hasInit := true },
   .start "P",
   .register { name := "X" }]

/-- **A successful start may leave a prerequisite unstarted.** -/
theorem stranded_not_started : ∃ r', bootstrapParcel "Q" (after stranded) = (r', .ok ()) ∧
    r'.Reaches "Q" "P" ∧ ¬ r'.Started "P" := by
  have hok : bootstrapParcel "Q" (after stranded) =
      ((bootstrapParcel "Q" (after stranded)).1, .ok ()) := by decide +kernel
  refine ⟨_, hok, .single ?_, ?_⟩
  · decide +kernel
  · rw [started_iff, Done]
    have hstate : (bootstrapParcel "Q" (after stranded)).1.state? "P" = some .inheritanceDone := by
      decide +kernel
    rw [hstate]
    simp

end Runtime

end ClassTables
