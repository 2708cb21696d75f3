import ClassTables.Proofs.BootRules
/-!
# A call that fails for want of a parcel can be made again

A parcel may name others that are registered later.  A call that comes to a parcel nobody knows
fails and takes back its marks, but keeps what it has finished.  Main statement: to register more
parcels then and make the call again leads to the very runtime, and the very answer, that one call
after registering them would have given (`call_resumed_eq`).

Registering changes nothing of what a call does before it comes to an unknown parcel
(`LoadRun.registerAll`), so both ways pass through the same states up to there.  The second attempt
finds finished what the first one finished, and sets the marks that were taken back again.
-/

namespace ClassTables

namespace Runtime

variable {F : Type} {r r₁ r' : Runtime F} {n k : String} {ns : List String} {p : ParcelEntry F}
  {s t : ParcelState} {evs : List BootEvent} {res : Except BootstrapError Unit} {x : String}

/-! ## Marks -/

theorem setState_setState : (r.setState n s).setState n t = r.setState n t := by
  simp only [setState, List.map_map]
  congr 1
  apply List.map_congr_left
  intro e _
  simp only [Function.comp_apply]
  by_cases h : e.spec.name = n
  · simp [h]
  · simp [h]

theorem setState_comm (hk : k ≠ n) :
    (r.setState n s).setState k t = (r.setState k t).setState n s := by
  simp only [setState, List.map_map]
  congr 1
  apply List.map_congr_left
  intro e _
  simp only [Function.comp_apply]
  by_cases h : e.spec.name = n
  · have hne : e.spec.name ≠ k := fun h' => hk (h' ▸ h)
    simp [h, hk.symm]
  · simp [h]
    split <;> simp [h]

/-- A mark that is there need not be set. -/
theorem state_of_setState_eq (h : r.setState n s = r) (hp : r.parcel? n = some p) :
    p.state = s := by
  have hmark := parcel?_setState (r := r) (n := n) (m := n) s
  rw [h, hp, Option.map_some, if_pos rfl, Option.some.injEq] at hmark
  rw [hmark]

theorem exists_parcel? {q : ParcelSpec F} (hq : r.spec? n = some q) (hs : r.state? n = some s) :
    ∃ e, r.parcel? n = some e ∧ e.spec = q ∧ e.state = s := by
  rw [spec?, Option.map_eq_some_iff] at hq
  obtain ⟨e, he, rfl⟩ := hq
  rw [state?_of_parcel? he, Option.some.injEq] at hs
  exact ⟨e, he, rfl, hs⟩

/-- Loading leaves a parcel alone that is marked. -/
theorem LoadRun.setState_eq (h : LoadRun ns r evs r' res) (hs : s ≠ .notStarted)
    (hk : r.setState k s = r) : r'.setState k s = r' := by
  have hne : ∀ {n : String} {r : Runtime F} {p : ParcelEntry F}, r.parcel? n = some p →
      p.state = .notStarted → r.setState k s = r → k ≠ n := by
    rintro n r p hp hstate hk rfl
    exact hs ((state_of_setState_eq hk hp).symm.trans hstate)
  induction h with
  | nil => exact hk
  | unknown _ => exact hk
  | cyclic _ _ => exact hk
  | known _ _ _ ih => exact ih hk
  | failed hp hstate _ ih =>
      have hkn := hne hp hstate hk
      rw [setState_comm hkn, ih (by rw [setState_comm hkn, hk])]
  | refused hp hstate _ _ ih =>
      have hkn := hne hp hstate hk
      rw [setState_comm hkn, ih (by rw [setState_comm hkn, hk])]
  | @loaded n _ r r₁ _ _ _ _ registry _ hp hstate _ _ _ ih ih' =>
      have hkn := hne hp hstate hk
      have hsub : r₁.setState k s = r₁ := ih (by rw [setState_comm hkn, hk])
      have hreg : { r₁ with registry }.setState k s = { r₁ with registry } := by
        rw [setState] at hsub ⊢
        rw [show r₁.parcels.map _ = r₁.parcels from congrArg Runtime.parcels hsub]
      exact ih' (by rw [setState_comm hkn, hreg])

/-- Starting leaves a parcel alone that counts as done. -/
theorem StartRun.setState_eq (h : StartRun ns r evs r' res)
    (hk : r.setState k .parcelDone = r) : r'.setState k .parcelDone = r' := by
  have hne : ∀ {n : String} {r : Runtime F} {p : ParcelEntry F}, r.parcel? n = some p →
      p.state ≠ .parcelDone → r.setState k .parcelDone = r → k ≠ n := by
    rintro n r p hp hstate hk rfl
    exact hstate (state_of_setState_eq hk hp)
  induction h with
  | nil => exact hk
  | unknown _ => exact hk
  | known _ _ _ ih => exact ih hk
  | notLoaded _ _ hload => exact hload.setState_eq (by decide) hk
  | failed hp hstate hload _ ih =>
      have hkn := hne hp hstate hk
      rw [setState_comm hkn, ih (by rw [setState_comm hkn, hload.setState_eq (by decide) hk])]
  | @started n _ r r₁ r₂ _ p _ _ _ _ hp hstate hload _ _ ih ih' =>
      have hkn := hne hp hstate hk
      have hsub := ih (by rw [setState_comm hkn, hload.setState_eq (by decide) hk])
      apply ih'
      rw [setState] at hsub ⊢
      rw [parcels_runInit, show r₂.parcels.map _ = r₂.parcels from congrArg Runtime.parcels hsub]
      rw [runInit]
      split <;> rfl

/-! ## Registering more parcels -/

/-- Registers parcels one after the other, whether this succeeds or fails. -/
def registerAll (ps : List (ParcelSpec F)) (r : Runtime F) : Runtime F :=
  ps.foldl (fun r p => (registerParcel p r).1) r

section RegisterParcel

variable {q : ParcelSpec F}

theorem registerParcel_of_some (h : (r.parcel? q.name).isSome = true) :
    (registerParcel q r).1 = r := by
  rw [registerParcel, if_pos h]

theorem registerParcel_of_none (h : ¬ (r.parcel? q.name).isSome = true) :
    (registerParcel q r).1 = { r with parcels := r.parcels ++ [{ spec := q }] } := by
  rw [registerParcel, if_neg h]

theorem parcel?_registerParcel_of_some (hp : r.parcel? n = some p) :
    (registerParcel q r).1.parcel? n = some p := by
  by_cases hq : (r.parcel? q.name).isSome = true
  · rwa [registerParcel_of_some hq]
  · rw [parcel?_registerParcel (by simpa using hq), if_neg, hp]
    rintro rfl
    exact hq (by rw [hp]; rfl)

theorem registerParcel_setState (hn : (r.parcel? n).isSome = true) :
    (registerParcel q (r.setState n s)).1 = (registerParcel q r).1.setState n s := by
  have hiff : ((r.setState n s).parcel? q.name).isSome = (r.parcel? q.name).isSome := by
    rw [parcel?_setState, Option.isSome_map]
  by_cases hq : (r.parcel? q.name).isSome = true
  · rw [registerParcel_of_some hq, registerParcel_of_some (hiff.trans hq)]
  · -- the new parcel has another name, so the mark does not reach it
    have hne : q.name ≠ n := fun h => hq (h ▸ hn)
    rw [registerParcel_of_none hq, registerParcel_of_none (hiff ▸ hq), setState, setState]
    simp [hne]

theorem registerParcel_registry (registry : Registry F) :
    (registerParcel q { r with registry }).1 = { (registerParcel q r).1 with registry } := by
  by_cases hq : (r.parcel? q.name).isSome = true
  · rw [registerParcel_of_some hq]
    exact registerParcel_of_some hq
  · rw [registerParcel_of_none hq]
    exact registerParcel_of_none hq

theorem registerParcel_runInit (p : ParcelSpec F) :
    (registerParcel q (runInit p r)).1 = runInit p (registerParcel q r).1 := by
  have hiff : (runInit p r).parcel? q.name = r.parcel? q.name := by
    rw [parcel?, parcels_runInit, parcel?]
  by_cases hq : (r.parcel? q.name).isSome = true
  · rw [registerParcel_of_some hq, registerParcel_of_some (hiff ▸ hq)]
  · rw [registerParcel_of_none hq, registerParcel_of_none (hiff ▸ hq), parcels_runInit]
    rw [runInit, runInit]
    split <;> rfl

end RegisterParcel

section RegisterAll

variable {ps : List (ParcelSpec F)}

theorem parcel?_registerAll (hp : r.parcel? n = some p) :
    (registerAll ps r).parcel? n = some p := by
  induction ps generalizing r with
  | nil => exact hp
  | cons q ps ih => exact ih (parcel?_registerParcel_of_some hp)

theorem registerAll_setState (hn : (r.parcel? n).isSome = true) :
    registerAll ps (r.setState n s) = (registerAll ps r).setState n s := by
  induction ps generalizing r with
  | nil => rfl
  | cons q ps ih =>
      obtain ⟨p, hp⟩ := Option.isSome_iff_exists.mp hn
      have hn' : ((registerParcel q r).1.parcel? n).isSome = true := by
        rw [parcel?_registerParcel_of_some hp]
        rfl
      rw [registerAll, List.foldl_cons, registerParcel_setState hn]
      exact ih hn'

theorem registerAll_registry (registry : Registry F) :
    registerAll ps { r with registry } = { registerAll ps r with registry } := by
  induction ps generalizing r with
  | nil => rfl
  | cons q ps ih =>
      rw [registerAll, List.foldl_cons, registerParcel_registry]
      exact ih

theorem registry_registerAll : (registerAll ps r).registry = r.registry := by
  induction ps generalizing r with
  | nil => rfl
  | cons q ps ih => exact ih.trans registry_registerParcel

theorem registerAll_runInit (p : ParcelSpec F) :
    registerAll ps (runInit p r) = runInit p (registerAll ps r) := by
  induction ps generalizing r with
  | nil => rfl
  | cons q ps ih =>
      rw [registerAll, List.foldl_cons, registerParcel_runInit]
      exact ih

/-! ## Up to an unknown parcel -/

theorem LoadRun.isSome_parcel? (h : LoadRun ns r evs r' res) (hn : (r.parcel? n).isSome = true) :
    (r'.parcel? n).isSome = true := by
  rw [parcel?_isSome_iff] at hn ⊢
  rwa [h.specs]

theorem StartRun.isSome_parcel? (h : StartRun ns r evs r' res)
    (hn : (r.parcel? n).isSome = true) : (r'.parcel? n).isSome = true := by
  rw [parcel?_isSome_iff] at hn ⊢
  rwa [h.specs]

theorem isSome_parcel?_setState (hn : (r.parcel? n).isSome = true) :
    ((r.setState k s).parcel? n).isSome = true := by
  rw [parcel?_setState, Option.isSome_map]
  exact hn

theorem isSome_of_parcel? (hp : r.parcel? n = some p) : (r.parcel? n).isSome = true := by
  rw [hp]
  rfl

/-- **Loading that meets no unknown parcel** does the same when more parcels are registered. -/
theorem LoadRun.registerAll (ps : List (ParcelSpec F)) (h : LoadRun ns r evs r' res)
    (hres : ∀ x, res ≠ .error (.unknownParcel x)) :
    LoadRun ns (registerAll ps r) evs (registerAll ps r') res := by
  induction h with
  | nil => exact .nil
  | unknown _ => exact absurd rfl (hres _)
  | cyclic hp hs => exact .cyclic (parcel?_registerAll hp) hs
  | known hp hs _ ih => exact .known (parcel?_registerAll hp) hs (ih hres)
  | failed hp hs hsub ih =>
      have hn := isSome_of_parcel? hp
      have ih := ih hres
      rw [registerAll_setState hn] at ih
      rw [registerAll_setState (hsub.isSome_parcel? (isSome_parcel?_setState hn))]
      exact .failed (parcel?_registerAll hp) hs ih
  | refused hp hs hsub hreg ih =>
      have hn := isSome_of_parcel? hp
      have ih := ih fun x hx => by cases hx
      rw [registerAll_setState hn] at ih
      rw [registerAll_setState (hsub.isSome_parcel? (isSome_parcel?_setState hn))]
      refine .refused (parcel?_registerAll hp) hs ih ?_
      rw [registry_registerAll, hreg]
  | @loaded n _ r r₁ _ _ _ _ registry _ hp hs hsub hreg _ ih ih' =>
      have hn := isSome_of_parcel? hp
      have ih := ih fun x hx => by cases hx
      have ih' := ih' hres
      have hn₁ : (({ r₁ with registry } : Runtime F).parcel? n).isSome = true :=
        hsub.isSome_parcel? (isSome_parcel?_setState hn)
      rw [registerAll_setState hn] at ih
      rw [registerAll_setState hn₁, registerAll_registry] at ih'
      refine .loaded (parcel?_registerAll hp) hs ih ?_ ih'
      rw [registry_registerAll, hreg]

theorem StartRun.registerAll (ps : List (ParcelSpec F)) (h : StartRun ns r evs r' res)
    (hres : ∀ x, res ≠ .error (.unknownParcel x)) :
    StartRun ns (registerAll ps r) evs (registerAll ps r') res := by
  induction h with
  | nil => exact .nil
  | unknown _ => exact absurd rfl (hres _)
  | known hp hs _ ih => exact .known (parcel?_registerAll hp) hs (ih hres)
  | notLoaded hp hs hload =>
      exact .notLoaded (parcel?_registerAll hp) hs (hload.registerAll ps hres)
  | failed hp hs hload hsub ih =>
      have hn₁ := hload.isSome_parcel? (isSome_of_parcel? hp)
      have ih := ih hres
      have hload := hload.registerAll ps fun x hx => by cases hx
      rw [registerAll_setState hn₁] at ih
      rw [registerAll_setState (hsub.isSome_parcel? (isSome_parcel?_setState hn₁))]
      exact .failed (parcel?_registerAll hp) hs hload ih
  | started hp hs hload hsub _ ih ih' =>
      have hn₁ := hload.isSome_parcel? (isSome_of_parcel? hp)
      have ih := ih fun x hx => by cases hx
      have hload := hload.registerAll ps fun x hx => by cases hx
      rw [registerAll_setState hn₁] at ih
      have ih' := ih' hres
      rw [registerAll_runInit] at ih'
      exact .started (parcel?_registerAll hp) hs hload ih ih'

/-! ## The second attempt -/

theorem state?_registerAll (hs : r.state? n = some s) : (registerAll ps r).state? n = some s := by
  rw [state?, Option.map_eq_some_iff] at hs
  obtain ⟨p, hp, rfl⟩ := hs
  exact state?_of_parcel? (parcel?_registerAll hp)

theorem Loaded.registerAll (hn : r.Loaded n) : (Runtime.registerAll ps r).Loaded n :=
  hn.imp state?_registerAll state?_registerAll

/-- Whatever the first attempt to load has left behind, the second one goes the way that a single
one goes. -/
theorem LoadRun.resumed (ps : List (ParcelSpec F)) (h : LoadRun ns r evs r' res)
    (hres : res = .error (.unknownParcel x)) :
    forEach bootstrapInheritance ns (Runtime.registerAll ps r') =
      forEach bootstrapInheritance ns (Runtime.registerAll ps r) := by
  induction h with
  | nil => cases hres
  | unknown _ => rfl
  | cyclic _ _ => cases hres
  | refused _ _ _ _ _ => cases hres
  | @known n _ r r' p _ _ hp hs hrun ih =>
      have hn : r.Loaded n := (loaded_iff_of_parcel? hp).mpr hs
      have hn' : r'.Loaded n := hrun.settles.loaded hn
      rw [forEach_ok (bootstrapInheritance_known hn.registerAll),
        forEach_ok (bootstrapInheritance_known hn'.registerAll)]
      exact ih hres
  | @failed n ns r r₁ p evs e hp hs hsub ih =>
      have hn := isSome_of_parcel? hp
      have hn₁ := hsub.isSome_parcel? (isSome_parcel?_setState hn)
      have hrun : LoadRun (n :: ns) r evs (r₁.setState n .notStarted) (.error e) :=
        .failed hp hs hsub
      -- the parcel is not started, as before, and its mark is set again
      have hspec : (r₁.setState n .notStarted).spec? n = some p.spec := by
        rw [spec?_of_specs hrun.specs, spec?_of_parcel? hp]
      have hstate : (r₁.setState n .notStarted).state? n = some .notStarted := by
        rw [state?_setState, if_pos rfl, hsub.state?_marked hp, Option.map_some]
      obtain ⟨q, hq, hqp, hqs⟩ := exists_parcel? hspec hstate
      have hmarked : r₁.setState n .inheritanceInProgress = r₁ :=
        hsub.setState_eq (by decide) setState_setState
      have hstep : bootstrapInheritance n (Runtime.registerAll ps (r₁.setState n .notStarted)) =
          bootstrapInheritance n (Runtime.registerAll ps r) := by
        rw [bootstrapInheritance_notStarted (parcel?_registerAll hq) hqs,
          bootstrapInheritance_notStarted (parcel?_registerAll hp) hs, hqp,
          ← registerAll_setState (isSome_of_parcel? hq), ← registerAll_setState hn,
          setState_setState, hmarked, ih hres]
      rw [forEach, forEach, hstep]
  | @loaded n ns r r₁ r' p evs evs' registry res hp hs hsub hreg hrun _ ih' =>
      have hone := LoadRun.loaded hp hs hsub hreg .nil
      have hn' : r'.Loaded n := by
        apply hrun.settles.loaded
        exact hone.loaded_of_ok rfl n List.mem_cons_self
      have hfirst := (hone.registerAll ps fun x hx => by cases hx).eq_bootstrap
      rw [forEach_ok hfirst, forEach_ok (bootstrapInheritance_known hn'.registerAll)]
      exact ih' hres

theorem StartRun.resumed (ps : List (ParcelSpec F)) (h : StartRun ns r evs r' res)
    (hres : res = .error (.unknownParcel x)) :
    forEach bootstrapParcel ns (Runtime.registerAll ps r') =
      forEach bootstrapParcel ns (Runtime.registerAll ps r) := by
  induction h with
  | nil => cases hres
  | unknown _ => rfl
  | @known n _ r r' p _ _ hp hs hrun ih =>
      have hn : r.Done n := (done_iff_of_parcel? hp).mpr hs
      have hn' : r'.Done n := hrun.done n hn
      rw [forEach_ok (bootstrapParcel_done (state?_registerAll hn)),
        forEach_ok (bootstrapParcel_done (state?_registerAll hn'))]
      exact ih hres
  | @notLoaded n ns r r₁ p evs e hp hs hload =>
      have hspec : r₁.spec? n = some p.spec := by
        rw [spec?_of_specs hload.specs, spec?_of_parcel? hp]
      obtain ⟨q, hq, hqp⟩ := Option.map_eq_some_iff.mp hspec
      have hqs : q.state ≠ .parcelDone := by
        rw [ne_eq, ← done_iff_of_parcel? hq, hload.done_iff, done_iff_of_parcel? hp]
        exact hs
      have hloads := hload.resumed ps hres
      rw [forEach_singleton, forEach_singleton] at hloads
      have hstep : bootstrapParcel n (Runtime.registerAll ps r₁) =
          bootstrapParcel n (Runtime.registerAll ps r) := by
        rw [bootstrapParcel_not_done (parcel?_registerAll hq) hqs,
          bootstrapParcel_not_done (parcel?_registerAll hp) hs, hloads, hqp]
      rw [forEach, forEach, hstep]
  | @failed n ns r r₁ r₂ p evs evs' e hp hs hload hsub ih =>
      have hn := isSome_of_parcel? hp
      have hn₁ := hload.isSome_parcel? hn
      have hn₂ := hsub.isSome_parcel? (isSome_parcel?_setState hn₁)
      have hrun : StartRun (n :: ns) r (evs ++ evs') (r₂.setState n .inheritanceDone) (.error e) :=
        .failed hp hs hload hsub
      -- the classes of the parcel are loaded by now, and it is marked as done again
      have hspec : (r₂.setState n .inheritanceDone).spec? n = some p.spec := by
        rw [spec?_of_specs hrun.specs, spec?_of_parcel? hp]
      have hstate : (r₂.setState n .inheritanceDone).state? n = some .inheritanceDone := by
        obtain ⟨q, hq⟩ := Option.isSome_iff_exists.mp hn₂
        exact state?_setState_self hq _
      obtain ⟨q, hq, hqp, hqs⟩ := exists_parcel? hspec hstate
      have hqs' : q.state ≠ .parcelDone := by
        rw [hqs]
        decide
      have hloaded : (r₂.setState n .inheritanceDone).Loaded n := Or.inl hstate
      have hfirst := (hload.registerAll ps fun x hx => by cases hx).eq_bootstrap
      have hmarked : r₂.setState n .parcelDone = r₂ := hsub.setState_eq setState_setState
      have hstep : bootstrapParcel n (Runtime.registerAll ps (r₂.setState n .inheritanceDone)) =
          bootstrapParcel n (Runtime.registerAll ps r) := by
        rw [bootstrapParcel_not_done (parcel?_registerAll hq) hqs',
          bootstrapParcel_not_done (parcel?_registerAll hp) hs, hfirst,
          bootstrapInheritance_known hloaded.registerAll]
        dsimp only
        rw [hqp, ← registerAll_setState (isSome_of_parcel? hq), setState_setState, hmarked,
          ← registerAll_setState hn₁, ih hres]
      rw [forEach, forEach, hstep]
  | @started n ns r r₁ r₂ r' p evs evs' evs'' res hp hs hload hsub hrun _ ih' =>
      have hone := StartRun.started hp hs hload hsub .nil
      have hn' : r'.Done n := by
        apply hrun.done
        rw [done_runInit]
        exact hsub.done n ((hload.done_mark_iff hp n).mpr (Or.inr rfl))
      have hfirst := (hone.registerAll ps fun x hx => by cases hx).eq_bootstrap
      rw [forEach_ok hfirst, forEach_ok (bootstrapParcel_done (state?_registerAll hn'))]
      exact ih' hres

end RegisterAll

/-- **A call that failed for want of a parcel can be made again** when more parcels have been
registered: the answer, the states, the loaded classes and the log are then those of a single call
made after registering them. -/
theorem call_resumed_eq (calls : List (Call F)) (c : Call F) (ps : List (ParcelSpec F))
    (h : (c.run (after calls)).2 = .error (.unknownParcel x)) :
    c.run (registerAll ps (c.run (after calls)).1) = c.run (registerAll ps (after calls)) := by
  cases c with
  | register p =>
      rw [Call.run, registerParcel] at h
      split at h
      · cases h
      · cases h
  | inherit n =>
      obtain ⟨evs, hrun⟩ := exists_loadRun n (after calls)
      have hresumed := hrun.resumed ps h
      rwa [forEach_singleton, forEach_singleton] at hresumed
  | start n =>
      obtain ⟨evs, hrun⟩ := exists_startRun n (after calls)
      have hresumed := hrun.resumed ps h
      rwa [forEach_singleton, forEach_singleton] at hresumed

/-- `Q` is completed below `P`, and `R` is loaded for it, before `X` turns out to be missing. -/
def interrupted : List (Call String) :=
  [.register { name := "P", prereqs := ["Q", "X"], hasInit := true },
   .register { name := "Q", inherited := ["R"], prereqs := ["P"], hasInit := true,
               classes := [{ name := "Dog", parcel := "Q", parent := some "Animal" }] },
   .register { name := "R", classes := [{ name := "Animal", parcel := "R" }] }]

theorem interrupted_call_resumed :
    ((Call.start "P").run (after interrupted)).2 = .error (.unknownParcel "X") ∧
      (Call.start "P").run (registerAll [{ name := "X", inherited := ["R"], hasInit := true }]
          ((Call.start "P").run (after interrupted)).1) =
        (Call.start "P").run (registerAll [{ name := "X", inherited := ["R"], hasInit := true }]
          (after interrupted)) := by
  have hfails : ((Call.start "P").run (after interrupted)).2 = .error (.unknownParcel "X") := by
    decide +kernel
  exact ⟨hfails, call_resumed_eq interrupted (.start "P") _ hfails⟩

end Runtime

end ClassTables
