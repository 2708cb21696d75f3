import ClassTables.Proofs.Lists
import ClassTables.Proofs.Starting
/-!
# Rules for bringing parcels up

`inheritTo` and `startTo` walk the graph of parcels to a depth.  Here the same walks are given by
rules, without a depth and with what happens on the way: `LoadRun` loads the classes of some
parcels one after the other, `StartRun` starts them.  A proof about all walks is then an induction
with one case for each thing that a parcel can do.

Main statements: every call runs by the rules (`exists_loadRun`, `exists_startRun`), and what runs
by the rules is what the call answers (`LoadRun.eq`, `StartRun.eq`).  From both together, the calls
satisfy equations in which no depth is left (`bootstrapInheritance_notStarted`,
`bootstrapParcel_not_done`).
-/

namespace ClassTables

/-- What happens while parcels are brought up. -/
inductive BootEvent where
  /-- The classes of a parcel are loaded, so many. -/
  | load (parcel : String) (count : Nat)
  | init (parcel : String)
deriving DecidableEq, Repr

/-- The running of the initializer, if there is one. -/
def ParcelSpec.initEvents {F : Type} (p : ParcelSpec F) : List BootEvent :=
  if p.hasInit then [.init p.name] else []

namespace Runtime

variable {F : Type}

/-! ## The rules -/

/-- `LoadRun ns r evs r' res`: to load the parcels `ns`, one after the other, takes `r` to `r'` by
the events `evs` and is answered by `res`. -/
inductive LoadRun : List String → Runtime F → List BootEvent → Runtime F →
    Except BootstrapError Unit → Prop
  | nil {r : Runtime F} : LoadRun [] r [] r (.ok ())
  | unknown {n : String} {ns : List String} {r : Runtime F} : r.parcel? n = none →
      LoadRun (n :: ns) r [] r (.error (.unknownParcel n))
  | cyclic {n : String} {ns : List String} {r : Runtime F} {p : ParcelEntry F} :
      r.parcel? n = some p → p.state = .inheritanceInProgress →
      LoadRun (n :: ns) r [] r (.error (.cyclicInheritance n))
  | known {n : String} {ns : List String} {r r' : Runtime F} {p : ParcelEntry F}
      {evs : List BootEvent} {res : Except BootstrapError Unit} : r.parcel? n = some p →
      p.state = .inheritanceDone ∨ p.state = .parcelDone → LoadRun ns r evs r' res →
      LoadRun (n :: ns) r evs r' res
  | failed {n : String} {ns : List String} {r r₁ : Runtime F} {p : ParcelEntry F}
      {evs : List BootEvent} {e : BootstrapError} : r.parcel? n = some p →
      p.state = .notStarted →
      LoadRun p.spec.inherited (r.setState n .inheritanceInProgress) evs r₁ (.error e) →
      LoadRun (n :: ns) r evs (r₁.setState n .notStarted) (.error e)
  | refused {n : String} {ns : List String} {r r₁ : Runtime F} {p : ParcelEntry F}
      {evs : List BootEvent} {e : RegisterError} : r.parcel? n = some p →
      p.state = .notStarted →
      LoadRun p.spec.inherited (r.setState n .inheritanceInProgress) evs r₁ (.ok ()) →
      r₁.registry.bootstrap p.spec.classes = .error e →
      LoadRun (n :: ns) r evs (r₁.setState n .notStarted) (.error (.classes e))
  | loaded {n : String} {ns : List String} {r r₁ r' : Runtime F} {p : ParcelEntry F}
      {evs evs' : List BootEvent} {registry : Registry F} {res : Except BootstrapError Unit} :
      r.parcel? n = some p → p.state = .notStarted →
      LoadRun p.spec.inherited (r.setState n .inheritanceInProgress) evs r₁ (.ok ()) →
      r₁.registry.bootstrap p.spec.classes = .ok registry →
      LoadRun ns ({ r₁ with registry }.setState n .inheritanceDone) evs' r' res →
      LoadRun (n :: ns) r (evs ++ .load n p.spec.classes.length :: evs') r' res

/-- `StartRun ns r evs r' res`: to start the parcels `ns`, one after the other, takes `r` to `r'` by
the events `evs` and is answered by `res`. -/
inductive StartRun : List String → Runtime F → List BootEvent → Runtime F →
    Except BootstrapError Unit → Prop
  | nil {r : Runtime F} : StartRun [] r [] r (.ok ())
  | unknown {n : String} {ns : List String} {r : Runtime F} : r.parcel? n = none →
      StartRun (n :: ns) r [] r (.error (.unknownParcel n))
  | known {n : String} {ns : List String} {r r' : Runtime F} {p : ParcelEntry F}
      {evs : List BootEvent} {res : Except BootstrapError Unit} : r.parcel? n = some p →
      p.state = .parcelDone → StartRun ns r evs r' res → StartRun (n :: ns) r evs r' res
  | notLoaded {n : String} {ns : List String} {r r₁ : Runtime F} {p : ParcelEntry F}
      {evs : List BootEvent} {e : BootstrapError} : r.parcel? n = some p →
      p.state ≠ .parcelDone → LoadRun [n] r evs r₁ (.error e) →
      StartRun (n :: ns) r evs r₁ (.error e)
  | failed {n : String} {ns : List String} {r r₁ r₂ : Runtime F} {p : ParcelEntry F}
      {evs evs' : List BootEvent} {e : BootstrapError} : r.parcel? n = some p →
      p.state ≠ .parcelDone → LoadRun [n] r evs r₁ (.ok ()) →
      StartRun p.spec.prereqs (r₁.setState n .parcelDone) evs' r₂ (.error e) →
      StartRun (n :: ns) r (evs ++ evs') (r₂.setState n .inheritanceDone) (.error e)
  | started {n : String} {ns : List String} {r r₁ r₂ r' : Runtime F} {p : ParcelEntry F}
      {evs evs' evs'' : List BootEvent} {res : Except BootstrapError Unit} :
      r.parcel? n = some p → p.state ≠ .parcelDone → LoadRun [n] r evs r₁ (.ok ()) →
      StartRun p.spec.prereqs (r₁.setState n .parcelDone) evs' r₂ (.ok ()) →
      StartRun ns (r₂.runInit p.spec) evs'' r' res →
      StartRun (n :: ns) r (evs ++ evs' ++ p.spec.initEvents ++ evs'') r' res

variable {r r₁ r₂ r' : Runtime F} {n : String} {ns : List String} {p : ParcelEntry F}
  {evs : List BootEvent} {res : Except BootstrapError Unit}

/-! ## What loading does to states -/

/-- The specifications of the registered parcels, in the order of registration. -/
def specs (r : Runtime F) : List (ParcelSpec F) := r.parcels.map (·.spec)

/-- The classes of the parcel are loaded. -/
def Loaded (r : Runtime F) (n : String) : Prop :=
  r.state? n = some .inheritanceDone ∨ r.state? n = some .parcelDone

theorem state?_of_parcel? (h : r.parcel? n = some p) : r.state? n = some p.state := by
  rw [state?, h, Option.map_some]

theorem spec?_of_parcel? (h : r.parcel? n = some p) : r.spec? n = some p.spec := by
  rw [spec?, h, Option.map_some]

theorem parcel?_isSome_iff : (r.parcel? n).isSome = true ↔ n ∈ r.specs.map (·.name) := by
  rw [parcel?, List.find?_isSome, Runtime.specs, List.map_map, List.mem_map]
  simp

theorem spec?_eq_find? (r : Runtime F) (n : String) :
    r.spec? n = r.specs.find? (·.name == n) := by
  rw [spec?, parcel?, Runtime.specs, List.find?_map]
  rfl

/-- What is registered is known by the specifications alone. -/
theorem spec?_of_specs (h : r'.specs = r.specs) : r'.spec? = r.spec? := by
  funext n
  rw [spec?_eq_find?, spec?_eq_find?, h]

theorem loaded_iff_of_parcel? (hp : r.parcel? n = some p) :
    r.Loaded n ↔ p.state = .inheritanceDone ∨ p.state = .parcelDone := by
  rw [Loaded, state?_of_parcel? hp, Option.some.injEq, Option.some.injEq]

theorem done_iff_of_parcel? (hp : r.parcel? n = some p) : r.Done n ↔ p.state = .parcelDone := by
  rw [Done, state?_of_parcel? hp, Option.some.injEq]

theorem state?_setState_self (hp : r.parcel? n = some p) (s : ParcelState) :
    (r.setState n s).state? n = some s := by
  rw [state?_setState, if_pos rfl, state?_of_parcel? hp, Option.map_some]

theorem name_mem_specs (hp : r.parcel? n = some p) : n ∈ r.specs.map (·.name) := by
  rw [← parcel?_isSome_iff, hp]
  rfl

@[simp] theorem specs_setState (s : ParcelState) : (r.setState n s).specs = r.specs := by
  rw [specs, specs, setState, List.map_map]
  apply List.map_congr_left
  intro e _
  rw [Function.comp_apply]
  split <;> rfl

@[simp] theorem specs_runInit (q : ParcelSpec F) : (runInit q r).specs = r.specs := by
  rw [specs, specs, parcels_runInit]

/-- Every parcel is in its state, but for some that were not started and are loaded now. -/
def Settles (r r' : Runtime F) : Prop :=
  ∀ k, r'.state? k = r.state? k ∨
    r.state? k = some .notStarted ∧ r'.state? k = some .inheritanceDone

theorem Settles.refl (r : Runtime F) : Settles r r := fun _ => Or.inl rfl

theorem Settles.trans (h : Settles r r₁) (h' : Settles r₁ r₂) : Settles r r₂ := by
  intro k
  rcases h k with h₁ | ⟨h₁, h₁'⟩ <;> rcases h' k with h₂ | ⟨h₂, h₂'⟩
  · exact Or.inl (h₂.trans h₁)
  · exact Or.inr ⟨h₁ ▸ h₂, h₂'⟩
  · exact Or.inr ⟨h₁, h₂.trans h₁'⟩
  · rw [h₁'] at h₂
    cases h₂

/-- A parcel that has been started, however far, stays in its state. -/
theorem Settles.state?_eq (h : Settles r r') {s : ParcelState} (hs : s ≠ .notStarted)
    (hn : r.state? n = some s) : r'.state? n = some s := by
  rcases h n with h | ⟨h, -⟩
  · rw [h, hn]
  · rw [hn, Option.some.injEq] at h
    exact absurd h hs

theorem Settles.of_notStarted (h : Settles r r') (hn : r'.state? n = some .notStarted) :
    r.state? n = some .notStarted := by
  rcases h n with h | ⟨h, -⟩
  · rw [← h, hn]
  · exact h

theorem Settles.loaded (h : Settles r r') (hn : r.Loaded n) : r'.Loaded n := by
  rcases hn with hn | hn
  · exact Or.inl (h.state?_eq (by decide) hn)
  · exact Or.inr (h.state?_eq (by decide) hn)

/-- The mark of a parcel that was not started is taken back, or the parcel is loaded. -/
theorem Settles.unmark (hn : r.state? n = some .notStarted)
    (h : Settles (r.setState n .inheritanceInProgress) r₁) {s : ParcelState}
    (hs : s = .notStarted ∨ s = .inheritanceDone) : Settles r (r₁.setState n s) := by
  intro k
  by_cases hk : k = n
  · subst hk
    have hmark : (r.setState k .inheritanceInProgress).state? k = some .inheritanceInProgress := by
      rw [state?_setState, if_pos rfl, hn, Option.map_some]
    have hkept := h.state?_eq (by decide) hmark
    rw [state?_setState, if_pos rfl, hkept, Option.map_some, hn]
    rcases hs with rfl | rfl
    · exact Or.inl rfl
    · exact Or.inr ⟨rfl, rfl⟩
  · have hmark : (r.setState n .inheritanceInProgress).state? k = r.state? k := by
      rw [state?_setState, if_neg hk]
    rw [state?_setState, if_neg hk, ← hmark]
    exact h k

theorem LoadRun.specs (h : LoadRun ns r evs r' res) : r'.specs = r.specs := by
  induction h with
  | nil => rfl
  | unknown _ => rfl
  | cyclic _ _ => rfl
  | known _ _ _ ih => exact ih
  | failed _ _ _ ih => simpa using ih
  | refused _ _ _ _ ih => simpa using ih
  | @loaded n _ _ r₁ _ _ _ _ registry _ _ _ _ _ _ ih ih' =>
      have hreg : ({ r₁ with registry } : Runtime F).specs = r₁.specs := rfl
      rw [ih', specs_setState, hreg]
      simpa using ih

theorem LoadRun.settles (h : LoadRun ns r evs r' res) : Settles r r' := by
  induction h with
  | nil => exact Settles.refl _
  | unknown _ => exact Settles.refl _
  | cyclic _ _ => exact Settles.refl _
  | known _ _ _ ih => exact ih
  | failed hp hs _ ih => exact Settles.unmark (hs ▸ state?_of_parcel? hp) ih (Or.inl rfl)
  | refused hp hs _ _ ih => exact Settles.unmark (hs ▸ state?_of_parcel? hp) ih (Or.inl rfl)
  | @loaded n _ r r₁ _ _ _ _ registry _ hp hs _ _ _ ih ih' =>
      -- replacing the registry touches no state
      have hreg : Settles (r.setState n .inheritanceInProgress) { r₁ with registry } := ih
      exact (Settles.unmark (hs ▸ state?_of_parcel? hp) hreg (Or.inr rfl)).trans ih'

/-- A parcel stays marked while those that it inherits from are loaded. -/
theorem LoadRun.state?_marked (hp : r.parcel? n = some p)
    (h : LoadRun ns (r.setState n .inheritanceInProgress) evs r' res) :
    r'.state? n = some .inheritanceInProgress :=
  h.settles.state?_eq (by decide) (state?_setState_self hp _)

/-- A parcel whose loading succeeds is loaded then. -/
theorem LoadRun.loaded_of_ok (h : LoadRun ns r evs r' res) (hok : res = .ok ()) :
    ∀ k ∈ ns, r'.Loaded k := by
  induction h with
  | nil => exact List.forall_mem_nil _
  | unknown _ => cases hok
  | cyclic _ _ => cases hok
  | known hp hs hrun ih =>
      refine List.forall_mem_cons.mpr ⟨?_, ih hok⟩
      exact hrun.settles.loaded ((loaded_iff_of_parcel? hp).mpr hs)
  | failed _ _ _ _ => cases hok
  | refused _ _ _ _ _ => cases hok
  | @loaded n _ r r₁ _ _ _ _ registry _ hp hs hsub _ hrun _ ih' =>
      refine List.forall_mem_cons.mpr ⟨?_, ih' hok⟩
      apply hrun.settles.loaded
      have hmark := hsub.state?_marked hp
      have hkept : ({ r₁ with registry } : Runtime F).state? n = some .inheritanceInProgress := hmark
      rw [Loaded, state?_setState, if_pos rfl, hkept]
      exact Or.inl rfl

/-! ## How deep a walk can be -/

/-- How many parcels are not started. -/
def waiting (r : Runtime F) : Nat :=
  (r.specs.map (·.name)).countP fun n => r.state? n = some .notStarted

/-- How many parcels are not done. -/
def unfinished (r : Runtime F) : Nat :=
  (r.specs.map (·.name)).countP fun n => r.state? n ≠ some .parcelDone

theorem waiting_le (r : Runtime F) : r.waiting ≤ r.parcels.length := by
  have h : r.waiting ≤ (r.specs.map (·.name)).length := List.countP_le_length
  rwa [Runtime.specs, List.map_map, List.length_map] at h

theorem unfinished_le (r : Runtime F) : r.unfinished ≤ r.parcels.length := by
  have h : r.unfinished ≤ (r.specs.map (·.name)).length := List.countP_le_length
  rwa [Runtime.specs, List.map_map, List.length_map] at h

theorem waiting_mark_lt (hp : r.parcel? n = some p) (hs : p.state = .notStarted) :
    (r.setState n .inheritanceInProgress).waiting < r.waiting := by
  have hn : r.state? n = some .notStarted := hs ▸ state?_of_parcel? hp
  rw [waiting, waiting, specs_setState]
  apply countP_lt ?_ (name_mem_specs hp)
  · simpa using hn
  · simp [state?_setState, hn]
  · intro k _ hk
    rw [decide_eq_true_eq] at hk ⊢
    rw [state?_setState] at hk
    split at hk
    · next h =>
        subst h
        simp [hn] at hk
    · exact hk

theorem Settles.waiting_le (hspecs : r'.specs = r.specs) (h : Settles r r') :
    r'.waiting ≤ r.waiting := by
  rw [waiting, waiting, hspecs]
  apply List.countP_mono_left
  intro k _ hk
  rw [decide_eq_true_eq] at hk ⊢
  exact h.of_notStarted hk

theorem unfinished_le_of_done (hspecs : r'.specs = r.specs) (h : ∀ k, r.Done k → r'.Done k) :
    r'.unfinished ≤ r.unfinished := by
  rw [unfinished, unfinished, hspecs]
  apply List.countP_mono_left
  intro k _ hk
  rw [decide_eq_true_eq] at hk ⊢
  exact fun hdone => hk (h k hdone)

/-! ## Calls run by the rules -/

/-- How a call answers once the parcels that `n` inherits from have been dealt with. -/
def closeLoad (n : String) (p : ParcelSpec F) :
    Runtime F × Except BootstrapError Unit → Runtime F × Except BootstrapError Unit
  | (r, .error e) => (r.setState n .notStarted, .error e)
  | (r, .ok ()) =>
    match r.registry.bootstrap p.classes with
    | .error e => (r.setState n .notStarted, .error (.classes e))
    | .ok registry => ({ r with registry }.setState n .inheritanceDone, .ok ())

/-- How a call answers once the prerequisites of `n` have been dealt with. -/
def closeStart (n : String) (p : ParcelSpec F) :
    Runtime F × Except BootstrapError Unit → Runtime F × Except BootstrapError Unit
  | (r, .error e) => (r.setState n .inheritanceDone, .error e)
  | (r, .ok ()) => (r.runInit p, .ok ())

theorem forEach_ok {step : String → RuntimeStep F} (h : step n r = (r₁, .ok ())) :
    forEach step (n :: ns) r = forEach step ns r₁ := by
  rw [forEach, h]

theorem forEach_error {step : String → RuntimeStep F} {e : BootstrapError}
    (h : step n r = (r₁, .error e)) : forEach step (n :: ns) r = (r₁, .error e) := by
  rw [forEach, h]

theorem forEach_singleton {step : String → RuntimeStep F} : forEach step [n] r = step n r := by
  rw [forEach]
  rcases step n r with ⟨r₁, e | _⟩
  · rfl
  · rfl

section Depth

variable {d : Nat}

theorem inheritTo_unknown (hp : r.parcel? n = none) :
    inheritTo (d + 1) n r = (r, .error (.unknownParcel n)) := by
  rw [inheritTo, hp]

theorem inheritTo_cyclic (hp : r.parcel? n = some p) (hs : p.state = .inheritanceInProgress) :
    inheritTo (d + 1) n r = (r, .error (.cyclicInheritance n)) := by
  rw [inheritTo, hp]
  simp only [hs]

theorem inheritTo_known (hp : r.parcel? n = some p)
    (hs : p.state = .inheritanceDone ∨ p.state = .parcelDone) :
    inheritTo (d + 1) n r = (r, .ok ()) := by
  rw [inheritTo, hp]
  rcases hs with hs | hs
  · simp only [hs]
  · simp only [hs]

theorem inheritTo_notStarted (hp : r.parcel? n = some p) (hs : p.state = .notStarted) :
    inheritTo (d + 1) n r = closeLoad n p.spec
      (forEach (inheritTo d) p.spec.inherited (r.setState n .inheritanceInProgress)) := by
  rw [inheritTo, hp]
  simp only [hs]
  rcases forEach (inheritTo d) p.spec.inherited (r.setState n .inheritanceInProgress) with
    ⟨r₁, e | _⟩
  · rfl
  · rfl

theorem startTo_unknown (hp : r.parcel? n = none) :
    startTo (d + 1) n r = (r, .error (.unknownParcel n)) := by
  rw [startTo, hp]

theorem startTo_done (hp : r.parcel? n = some p) (hs : p.state = .parcelDone) :
    startTo (d + 1) n r = (r, .ok ()) := by
  rw [startTo, hp]
  exact if_pos hs

theorem startTo_not_done (hp : r.parcel? n = some p) (hs : p.state ≠ .parcelDone) :
    startTo (d + 1) n r = match bootstrapInheritance n r with
      | (r₁, .error e) => (r₁, .error e)
      | (r₁, .ok ()) => closeStart n p.spec
          (forEach (startTo d) p.spec.prereqs (r₁.setState n .parcelDone)) := by
  rw [startTo, hp]
  dsimp only
  rw [if_neg hs]
  rcases bootstrapInheritance n r with ⟨r₁, e | _⟩
  · rfl
  · dsimp only
    rcases forEach (startTo d) p.spec.prereqs (r₁.setState n .parcelDone) with ⟨r₂, e | _⟩
    · rfl
    · rfl

end Depth

/-- **Loading runs by the rules,** if it may go deeper than there are parcels to be marked. -/
theorem exists_loadRun_of_lt : ∀ (d : Nat) (ns : List String) (r : Runtime F), r.waiting < d →
    ∃ evs, LoadRun ns r evs (forEach (inheritTo d) ns r).1 (forEach (inheritTo d) ns r).2 := by
  intro d
  induction d with
  | zero =>
      intro ns r h
      exact absurd h (Nat.not_lt_zero _)
  | succ d ihd =>
      intro ns
      induction ns with
      | nil => exact fun r _ => ⟨[], .nil⟩
      | cons n ns ihns =>
          intro r hr
          cases hp : r.parcel? n with
          | none =>
              rw [forEach_error (inheritTo_unknown hp)]
              exact ⟨[], .unknown hp⟩
          | some p =>
              cases hs : p.state with
              | inheritanceInProgress =>
                  rw [forEach_error (inheritTo_cyclic hp hs)]
                  exact ⟨[], .cyclic hp hs⟩
              | inheritanceDone =>
                  rw [forEach_ok (inheritTo_known hp (Or.inl hs))]
                  obtain ⟨evs, hrest⟩ := ihns r hr
                  exact ⟨evs, .known hp (Or.inl hs) hrest⟩
              | parcelDone =>
                  rw [forEach_ok (inheritTo_known hp (Or.inr hs))]
                  obtain ⟨evs, hrest⟩ := ihns r hr
                  exact ⟨evs, .known hp (Or.inr hs) hrest⟩
              | notStarted =>
                  -- one more parcel is marked, so the walk below may be one less deep
                  have hlt := Nat.lt_of_lt_of_le (waiting_mark_lt hp hs) (Nat.le_of_lt_succ hr)
                  obtain ⟨evs, hsub⟩ := ihd p.spec.inherited _ hlt
                  have hstep := inheritTo_notStarted (d := d) hp hs
                  generalize forEach (inheritTo d) p.spec.inherited
                    (r.setState n .inheritanceInProgress) = out at hsub hstep
                  rcases out with ⟨r₁, e | _⟩
                  · rw [forEach_error hstep]
                    exact ⟨evs, .failed hp hs hsub⟩
                  · cases hreg : r₁.registry.bootstrap p.spec.classes with
                    | error e =>
                        rw [closeLoad, hreg] at hstep
                        rw [forEach_error hstep]
                        exact ⟨evs, .refused hp hs hsub hreg⟩
                    | ok registry =>
                        rw [closeLoad, hreg] at hstep
                        rw [forEach_ok hstep]
                        have hone := LoadRun.loaded hp hs hsub hreg .nil
                        have hle := hone.settles.waiting_le hone.specs
                        obtain ⟨evs', hrest⟩ := ihns _ (Nat.lt_of_le_of_lt hle hr)
                        exact ⟨_, .loaded hp hs hsub hreg hrest⟩

/-- What runs by the rules is what loading to any sufficient depth answers. -/
theorem LoadRun.eq_of_lt (h : LoadRun ns r evs r' res) : ∀ d, r.waiting < d →
    forEach (inheritTo d) ns r = (r', res) := by
  induction h with
  | nil => exact fun d _ => rfl
  | unknown hp =>
      intro d hd
      obtain ⟨d, rfl⟩ := Nat.exists_eq_add_of_lt hd
      exact forEach_error (inheritTo_unknown hp)
  | cyclic hp hs =>
      intro d hd
      obtain ⟨d, rfl⟩ := Nat.exists_eq_add_of_lt hd
      exact forEach_error (inheritTo_cyclic hp hs)
  | known hp hs _ ih =>
      intro d hd
      rw [← ih d hd]
      obtain ⟨d, rfl⟩ := Nat.exists_eq_add_of_lt hd
      exact forEach_ok (inheritTo_known hp hs)
  | failed hp hs _ ih =>
      intro d hd
      have hlt := waiting_mark_lt hp hs
      obtain ⟨d, rfl⟩ := Nat.exists_eq_add_of_lt hd
      apply forEach_error
      rw [inheritTo_notStarted hp hs, ih _ (by omega), closeLoad]
  | refused hp hs _ hreg ih =>
      intro d hd
      have hlt := waiting_mark_lt hp hs
      obtain ⟨d, rfl⟩ := Nat.exists_eq_add_of_lt hd
      apply forEach_error
      rw [inheritTo_notStarted hp hs, ih _ (by omega), closeLoad, hreg]
  | loaded hp hs hsub hreg _ ih ih' =>
      intro d hd
      have hone := LoadRun.loaded hp hs hsub hreg .nil
      have hle := hone.settles.waiting_le hone.specs
      rw [← ih' d (by omega)]
      have hlt := waiting_mark_lt hp hs
      obtain ⟨d, rfl⟩ := Nat.exists_eq_add_of_lt hd
      apply forEach_ok
      rw [inheritTo_notStarted hp hs, ih _ (by omega), closeLoad, hreg]

theorem exists_loadRun (n : String) (r : Runtime F) : ∃ evs, LoadRun [n] r evs
    (bootstrapInheritance n r).1 (bootstrapInheritance n r).2 := by
  have h := exists_loadRun_of_lt (r.parcels.length + 1) [n] r (Nat.lt_succ_of_le r.waiting_le)
  rwa [forEach_singleton] at h

theorem LoadRun.inheritTo_eq (h : LoadRun [n] r evs r' res) {d : Nat} (hd : r.waiting < d) :
    inheritTo d n r = (r', res) := by
  have heq := h.eq_of_lt d hd
  rwa [forEach_singleton] at heq

theorem LoadRun.eq_bootstrap (h : LoadRun [n] r evs r' res) :
    bootstrapInheritance n r = (r', res) :=
  h.inheritTo_eq (Nat.lt_succ_of_le r.waiting_le)

/-- **What runs by the rules is what loading answers.** -/
theorem LoadRun.eq (h : LoadRun ns r evs r' res) :
    forEach bootstrapInheritance ns r = (r', res) := by
  induction h with
  | nil => rfl
  | unknown hp => exact forEach_error (inheritTo_unknown hp)
  | cyclic hp hs => exact forEach_error (inheritTo_cyclic hp hs)
  | known hp hs _ ih => exact (forEach_ok (LoadRun.known hp hs .nil).eq_bootstrap).trans ih
  | failed hp hs hsub _ => exact forEach_error (LoadRun.failed hp hs hsub).eq_bootstrap
  | refused hp hs hsub hreg _ => exact forEach_error (LoadRun.refused hp hs hsub hreg).eq_bootstrap
  | loaded hp hs hsub hreg _ _ ih' =>
      exact (forEach_ok (LoadRun.loaded hp hs hsub hreg .nil).eq_bootstrap).trans ih'

theorem LoadRun.done_iff (h : LoadRun ns r evs r' res) (k : String) : r'.Done k ↔ r.Done k := by
  constructor
  · intro hk
    rcases h.settles k with heq | ⟨-, heq⟩
    · rwa [Done, heq] at hk
    · rw [Done, heq] at hk
      cases hk
  · exact h.settles.state?_eq (by decide)

/-- A parcel that is marked after its classes are loaded is one more that counts as done. -/
theorem LoadRun.done_mark_iff (h : LoadRun ns r evs r' res) (hp : r.parcel? n = some p)
    (k : String) : (r'.setState n .parcelDone).Done k ↔ r.Done k ∨ k = n := by
  have hn : (r'.spec? n).isSome = true := by
    rw [spec?, Option.isSome_map, parcel?_isSome_iff, h.specs]
    exact name_mem_specs hp
  rw [done_setState_parcelDone, h.done_iff]
  exact or_congr_right (and_iff_left hn)

theorem StartRun.specs (h : StartRun ns r evs r' res) : r'.specs = r.specs := by
  induction h with
  | nil => rfl
  | unknown _ => rfl
  | known _ _ _ ih => exact ih
  | notLoaded _ _ hload => exact hload.specs
  | failed _ _ hload _ ih => simpa [hload.specs] using ih
  | started _ _ hload _ _ ih ih' => simpa [ih, hload.specs] using ih'

/-- A call takes back its own marks only. -/
theorem StartRun.done (h : StartRun ns r evs r' res) : ∀ k, r.Done k → r'.Done k := by
  induction h with
  | nil => exact fun k hk => hk
  | unknown _ => exact fun k hk => hk
  | known _ _ _ ih => exact ih
  | notLoaded _ _ hload => exact fun k hk => (hload.done_iff k).mpr hk
  | failed hp hs hload _ ih =>
      intro k hk
      rw [done_setState_of_ne (by decide)]
      refine ⟨ih k ((hload.done_mark_iff hp k).mpr (Or.inl hk)), ?_⟩
      rintro rfl
      exact hs ((done_iff_of_parcel? hp).mp hk)
  | started hp _ hload _ _ ih ih' =>
      intro k hk
      apply ih' k
      rw [done_runInit]
      exact ih k ((hload.done_mark_iff hp k).mpr (Or.inl hk))

theorem unfinished_mark_lt (hp : r.parcel? n = some p) (hs : p.state ≠ .parcelDone)
    (hload : LoadRun [n] r evs r₁ res) :
    (r₁.setState n .parcelDone).unfinished < r.unfinished := by
  have hmark := hload.done_mark_iff hp
  simp only [Done] at hmark
  rw [unfinished, unfinished, specs_setState, hload.specs]
  apply countP_lt ?_ (name_mem_specs hp)
  · simpa [state?_of_parcel? hp] using hs
  · simpa using (hmark n).mpr (Or.inr rfl)
  · intro k _ hk
    rw [decide_eq_true_eq] at hk ⊢
    exact fun hk' => hk ((hmark k).mpr (Or.inl hk'))

/-- **Starting runs by the rules,** if it may go deeper than there are parcels to be done. -/
theorem exists_startRun_of_lt : ∀ (d : Nat) (ns : List String) (r : Runtime F),
    r.unfinished < d →
      ∃ evs, StartRun ns r evs (forEach (startTo d) ns r).1 (forEach (startTo d) ns r).2 := by
  intro d
  induction d with
  | zero =>
      intro ns r h
      exact absurd h (Nat.not_lt_zero _)
  | succ d ihd =>
      intro ns
      induction ns with
      | nil => exact fun r _ => ⟨[], .nil⟩
      | cons n ns ihns =>
          intro r hr
          cases hp : r.parcel? n with
          | none =>
              rw [forEach_error (startTo_unknown hp)]
              exact ⟨[], .unknown hp⟩
          | some p =>
              by_cases hs : p.state = .parcelDone
              · rw [forEach_ok (startTo_done hp hs)]
                obtain ⟨evs, hrest⟩ := ihns r hr
                exact ⟨evs, .known hp hs hrest⟩
              · obtain ⟨evs, hload⟩ := exists_loadRun n r
                have hstep := startTo_not_done (d := d) hp hs
                generalize bootstrapInheritance n r = out at hload hstep
                rcases out with ⟨r₁, e | _⟩
                · rw [forEach_error hstep]
                  exact ⟨evs, .notLoaded hp hs hload⟩
                · dsimp only at hload hstep
                  -- one more parcel counts as done while its prerequisites are started
                  have hlt := Nat.lt_of_lt_of_le (unfinished_mark_lt hp hs hload)
                    (Nat.le_of_lt_succ hr)
                  obtain ⟨evs', hsub⟩ := ihd p.spec.prereqs _ hlt
                  generalize forEach (startTo d) p.spec.prereqs (r₁.setState n .parcelDone) = out
                    at hsub hstep
                  rcases out with ⟨r₂, e | _⟩
                  · rw [forEach_error hstep]
                    exact ⟨_, .failed hp hs hload hsub⟩
                  · rw [forEach_ok hstep]
                    have hone := StartRun.started hp hs hload hsub .nil
                    have hle := unfinished_le_of_done hone.specs hone.done
                    obtain ⟨evs'', hrest⟩ := ihns _ (Nat.lt_of_le_of_lt hle hr)
                    exact ⟨_, .started hp hs hload hsub hrest⟩

/-- What runs by the rules is what starting to any sufficient depth answers. -/
theorem StartRun.eq_of_lt (h : StartRun ns r evs r' res) : ∀ d, r.unfinished < d →
    forEach (startTo d) ns r = (r', res) := by
  induction h with
  | nil => exact fun d _ => rfl
  | unknown hp =>
      intro d hd
      obtain ⟨d, rfl⟩ := Nat.exists_eq_add_of_lt hd
      exact forEach_error (startTo_unknown hp)
  | known hp hs _ ih =>
      intro d hd
      rw [← ih d hd]
      obtain ⟨d, rfl⟩ := Nat.exists_eq_add_of_lt hd
      exact forEach_ok (startTo_done hp hs)
  | notLoaded hp hs hload =>
      intro d hd
      obtain ⟨d, rfl⟩ := Nat.exists_eq_add_of_lt hd
      apply forEach_error
      rw [startTo_not_done hp hs, hload.eq_bootstrap]
  | failed hp hs hload _ ih =>
      intro d hd
      have hlt := unfinished_mark_lt hp hs hload
      obtain ⟨d, rfl⟩ := Nat.exists_eq_add_of_lt hd
      apply forEach_error
      rw [startTo_not_done hp hs, hload.eq_bootstrap]
      dsimp only
      rw [ih _ (by omega), closeStart]
  | started hp hs hload hsub _ ih ih' =>
      intro d hd
      have hone := StartRun.started hp hs hload hsub .nil
      have hle := unfinished_le_of_done hone.specs hone.done
      rw [← ih' d (by omega)]
      have hlt := unfinished_mark_lt hp hs hload
      obtain ⟨d, rfl⟩ := Nat.exists_eq_add_of_lt hd
      apply forEach_ok
      rw [startTo_not_done hp hs, hload.eq_bootstrap]
      dsimp only
      rw [ih _ (by omega), closeStart]

theorem exists_startRun (n : String) (r : Runtime F) : ∃ evs, StartRun [n] r evs
    (bootstrapParcel n r).1 (bootstrapParcel n r).2 := by
  have h := exists_startRun_of_lt (r.parcels.length + 1) [n] r (Nat.lt_succ_of_le r.unfinished_le)
  rwa [forEach_singleton] at h

theorem StartRun.startTo_eq (h : StartRun [n] r evs r' res) {d : Nat} (hd : r.unfinished < d) :
    startTo d n r = (r', res) := by
  have heq := h.eq_of_lt d hd
  rwa [forEach_singleton] at heq

theorem StartRun.eq_bootstrap (h : StartRun [n] r evs r' res) :
    bootstrapParcel n r = (r', res) :=
  h.startTo_eq (Nat.lt_succ_of_le r.unfinished_le)

/-- **What runs by the rules is what starting answers.** -/
theorem StartRun.eq (h : StartRun ns r evs r' res) : forEach bootstrapParcel ns r = (r', res) := by
  induction h with
  | nil => rfl
  | unknown hp => exact forEach_error (startTo_unknown hp)
  | known hp hs _ ih => exact (forEach_ok (StartRun.known hp hs .nil).eq_bootstrap).trans ih
  | notLoaded hp hs hload => exact forEach_error (StartRun.notLoaded hp hs hload).eq_bootstrap
  | failed hp hs hload hsub _ =>
      exact forEach_error (StartRun.failed hp hs hload hsub).eq_bootstrap
  | started hp hs hload hsub _ _ ih' =>
      exact (forEach_ok (StartRun.started hp hs hload hsub .nil).eq_bootstrap).trans ih'

/-! ## Equations without a depth -/

theorem bootstrapInheritance_known (hn : r.Loaded n) :
    bootstrapInheritance n r = (r, .ok ()) := by
  cases hp : r.parcel? n with
  | none =>
      rw [Loaded, state?, hp] at hn
      rcases hn with hn | hn <;> cases hn
  | some p => exact inheritTo_known hp ((loaded_iff_of_parcel? hp).mp hn)

theorem bootstrapInheritance_notStarted (hp : r.parcel? n = some p) (hs : p.state = .notStarted) :
    bootstrapInheritance n r = closeLoad n p.spec
      (forEach bootstrapInheritance p.spec.inherited (r.setState n .inheritanceInProgress)) := by
  have hlt := Nat.lt_of_lt_of_le (waiting_mark_lt hp hs) r.waiting_le
  obtain ⟨evs, hsub⟩ := exists_loadRun_of_lt _ p.spec.inherited _ hlt
  rw [bootstrapInheritance, inheritTo_notStarted hp hs, hsub.eq]

theorem bootstrapParcel_done (hn : r.Done n) : bootstrapParcel n r = (r, .ok ()) := by
  cases hp : r.parcel? n with
  | none =>
      rw [Done, state?, hp] at hn
      cases hn
  | some p => exact startTo_done hp ((done_iff_of_parcel? hp).mp hn)

theorem bootstrapParcel_not_done (hp : r.parcel? n = some p) (hs : p.state ≠ .parcelDone) :
    bootstrapParcel n r = match bootstrapInheritance n r with
      | (r₁, .error e) => (r₁, .error e)
      | (r₁, .ok ()) => closeStart n p.spec
          (forEach bootstrapParcel p.spec.prereqs (r₁.setState n .parcelDone)) := by
  rw [bootstrapParcel, startTo_not_done hp hs]
  obtain ⟨evs, hload⟩ := exists_loadRun n r
  generalize bootstrapInheritance n r = out at hload ⊢
  rcases out with ⟨r₁, e | _⟩
  · rfl
  · have hlt := Nat.lt_of_lt_of_le (unfinished_mark_lt hp hs hload) r.unfinished_le
    obtain ⟨evs', hsub⟩ := exists_startRun_of_lt _ p.spec.prereqs _ hlt
    dsimp only at hsub ⊢
    rw [hsub.eq]

end Runtime

end ClassTables
