import ClassTables.Bootstrap.Basic
import Mathlib.Logic.Relation
/-!
# States of a runtime

A runtime is looked at through a few views: which parcels are registered with which specification,
which of them are done, and which parcels can be reached along prerequisites.  Here are these views
with what the small steps do to them, and the runs of a runtime: any calls in any order, whether
they succeed or fail.
-/

namespace ClassTables

namespace Runtime

variable {F : Type} {r r' : Runtime F} {m n : String}

/-! ## Views -/

/-- The specification that a parcel is registered with. -/
def spec? (r : Runtime F) (n : String) : Option (ParcelSpec F) := (r.parcel? n).map (·.spec)

/-- The prerequisites of a parcel; none, if it is not registered. -/
def prereqsOf (r : Runtime F) (n : String) : List String := ((r.spec? n).map (·.prereqs)).getD []

/-- The parcel is registered and counts as done. -/
def Done (r : Runtime F) (n : String) : Prop := r.state? n = some .parcelDone

/-- The initializer of the parcel, if it has one, has run. -/
def Initialized (r : Runtime F) (n : String) : Prop :=
  ∀ p, r.spec? n = some p → p.hasInit = true → n ∈ r.log

/-- The second parcel is reached from the first one along prerequisites. -/
def Reaches (r : Runtime F) : String → String → Prop :=
  Relation.ReflTransGen fun a b => b ∈ r.prereqsOf a

/-- The second parcel is reached from the first one along parcels that are not done. -/
def Pending (r : Runtime F) (n m : String) : Prop :=
  ¬ r.Done n ∧ Relation.ReflTransGen (fun a b => b ∈ r.prereqsOf a ∧ ¬ r.Done b) n m

/-- The parcel is registered, done, and initialized. -/
def Started (r : Runtime F) (n : String) : Prop :=
  ∃ p, r.parcel? n = some p ∧ p.state = .parcelDone ∧ (p.spec.hasInit = true → n ∈ r.log)

theorem started_iff : r.Started n ↔ r.Done n ∧ r.Initialized n := by
  rw [Started, Done, Initialized, state?, spec?]
  cases r.parcel? n with
  | none => simp
  | some p => simp

theorem Pending.reaches (h : r.Pending n m) : r.Reaches n m :=
  h.2.lift id fun _ _ hab => hab.1

theorem Pending.head {k : String} (hn : ¬ r.Done n) (hk : k ∈ r.prereqsOf n)
    (h : r.Pending k m) : r.Pending n m :=
  ⟨hn, .head ⟨hk, h.1⟩ h.2⟩

/-- What is pending when more is done was pending before. -/
theorem Pending.of_done (hprereqs : r'.prereqsOf = r.prereqsOf) (hdone : ∀ k, r.Done k → r'.Done k)
    (h : r'.Pending n m) : r.Pending n m := by
  refine ⟨fun hn => h.1 (hdone n hn), h.2.lift id fun a b hab => ?_⟩
  exact ⟨hprereqs ▸ hab.1, fun hb => hab.2 (hdone b hb)⟩

/-! ## Changing a state -/

theorem parcel?_setState (s : ParcelState) : (r.setState n s).parcel? m =
    (r.parcel? m).map fun e => if m = n then { e with state := s } else e := by
  have hname : ∀ e : ParcelEntry F,
      (if e.spec.name = n then { e with state := s } else e).spec = e.spec := by
    intro e
    split <;> rfl
  rw [parcel?, parcel?, setState, List.find?_map]
  have hpred : ((fun e : ParcelEntry F => e.spec.name == m) ∘ fun e : ParcelEntry F =>
      if e.spec.name = n then { e with state := s } else e) = fun e => e.spec.name == m := by
    funext e
    rw [Function.comp_apply, hname]
  rw [hpred]
  cases hfind : r.parcels.find? (fun e => e.spec.name == m) with
  | none => rfl
  | some e =>
      have hm : e.spec.name = m := by simpa using List.find?_some hfind
      rw [Option.map_some, Option.map_some, hm]

theorem spec?_setState (s : ParcelState) : (r.setState n s).spec? = r.spec? := by
  funext m
  rw [spec?, spec?, parcel?_setState, Option.map_map]
  congr 1
  funext e
  rw [Function.comp_apply]
  split <;> rfl

theorem state?_setState (s : ParcelState) : (r.setState n s).state? m =
    if m = n then (r.state? m).map fun _ => s else r.state? m := by
  rw [state?, state?, parcel?_setState, Option.map_map]
  by_cases h : m = n
  · rw [if_pos h, Option.map_map]
    congr 1
    funext e
    rw [Function.comp_apply, Function.comp_apply, if_pos h]
  · rw [if_neg h]
    congr 1
    funext e
    rw [Function.comp_apply, if_neg h]

theorem done_setState_parcelDone : (r.setState n .parcelDone).Done m ↔
    r.Done m ∨ m = n ∧ (r.spec? n).isSome = true := by
  rw [Done, Done, state?_setState]
  by_cases h : m = n
  · subst h
    rw [if_pos rfl, state?, spec?]
    cases r.parcel? m with
    | none => simp
    | some p => simp
  · rw [if_neg h]
    simp [h]

theorem done_setState_of_ne {s : ParcelState} (hs : s ≠ .parcelDone) :
    (r.setState n s).Done m ↔ r.Done m ∧ m ≠ n := by
  rw [Done, Done, state?_setState]
  by_cases h : m = n
  · rw [if_pos h]
    cases r.state? m with
    | none => simp
    | some t => simp [hs, h]
  · rw [if_neg h]
    simp [h]

theorem prereqsOf_eq_of_spec? (h : r'.spec? = r.spec?) : r'.prereqsOf = r.prereqsOf := by
  funext n
  rw [prereqsOf, prereqsOf, h]

theorem Initialized.of_log (hspec : r'.spec? = r.spec?) (hlog : r.log ⊆ r'.log)
    (h : r.Initialized n) : r'.Initialized n := by
  intro p hp hinit
  rw [hspec] at hp
  exact hlog (h p hp hinit)

theorem spec?_name {p : ParcelSpec F} (h : r.spec? n = some p) : p.name = n := by
  rw [spec?, Option.map_eq_some_iff] at h
  obtain ⟨e, he, rfl⟩ := h
  simpa using List.find?_some he

/-! ## Initializers -/

section RunInit

variable (p : ParcelSpec F)

theorem parcels_runInit : (runInit p r).parcels = r.parcels := by
  rw [runInit]
  split <;> rfl

theorem spec?_runInit : (runInit p r).spec? = r.spec? := by
  funext k
  rw [spec?, spec?, parcel?, parcel?, parcels_runInit]

theorem done_runInit : (runInit p r).Done n ↔ r.Done n := by
  rw [Done, Done, state?, state?, parcel?, parcel?, parcels_runInit]

theorem log_subset_runInit : r.log ⊆ (runInit p r).log := by
  rw [runInit]
  split
  · exact List.subset_append_left _ _
  · exact List.Subset.refl _

variable {p}

theorem initialized_runInit (h : r.spec? n = some p) : (runInit p r).Initialized n := by
  intro q hq hinit
  rw [spec?_runInit, h] at hq
  cases hq
  rw [runInit, if_pos hinit, spec?_name h]
  exact List.mem_append_right _ List.mem_cons_self

end RunInit

/-! ## Registering -/

section Register

variable {p : ParcelSpec F}

theorem parcel?_registerParcel (h : r.parcel? p.name = none) : (registerParcel p r).1.parcel? m =
    if m = p.name then some { spec := p } else r.parcel? m := by
  rw [registerParcel, h]
  show (r.parcels ++ [({ spec := p } : ParcelEntry F)]).find? (fun e => e.spec.name == m) = _
  rw [List.find?_append]
  by_cases hm : m = p.name
  · subst hm
    rw [show r.parcels.find? (fun e => e.spec.name == p.name) = none from h]
    simp
  · have hne : (p.name == m) = false := beq_false_of_ne (Ne.symm hm)
    rw [if_neg hm, List.find?_cons, hne, List.find?_nil, Option.or_none]
    rfl

/-- A registered parcel is not done before it is started. -/
theorem done_registerParcel : (registerParcel p r).1.Done m ↔ r.Done m := by
  cases hp : r.parcel? p.name with
  | some e => rw [registerParcel, hp]; rfl
  | none =>
      rw [Done, Done, state?, state?, parcel?_registerParcel hp]
      by_cases hm : m = p.name
      · subst hm
        rw [if_pos rfl, hp]
        simp
      · rw [if_neg hm]

/-- Registering adds to what is known about parcels. -/
theorem spec?_registerParcel {q : ParcelSpec F} (h : r.spec? m = some q) :
    (registerParcel p r).1.spec? m = some q := by
  cases hp : r.parcel? p.name with
  | some e => rwa [registerParcel, hp]
  | none =>
      rw [spec?, parcel?_registerParcel hp, if_neg]
      · exact h
      · rintro rfl
        rw [spec?, hp] at h
        cases h

theorem log_registerParcel : (registerParcel p r).1.log = r.log := by
  rw [registerParcel]
  split <;> rfl

theorem registry_registerParcel : (registerParcel p r).1.registry = r.registry := by
  rw [registerParcel]
  split <;> rfl

end Register

/-! ## Loading classes -/

/-- Specifications, the parcels that are done, and the log are as they were. -/
structure Kept (r r' : Runtime F) : Prop where
  spec? : r'.spec? = r.spec?
  done : ∀ n, r'.Done n ↔ r.Done n
  log : r'.log = r.log

theorem Kept.refl (r : Runtime F) : Kept r r := ⟨rfl, fun _ => Iff.rfl, rfl⟩

theorem Kept.trans {r₁ r₂ r₃ : Runtime F} (h : Kept r₁ r₂) (h' : Kept r₂ r₃) : Kept r₁ r₃ :=
  ⟨h'.spec?.trans h.spec?, fun n => (h'.done n).trans (h.done n), h'.log.trans h.log⟩

theorem Kept.setState {s : ParcelState} (hs : s ≠ .parcelDone) (hn : ¬ r.Done n) :
    Kept r (r.setState n s) := by
  refine ⟨spec?_setState s, fun m => ?_, rfl⟩
  rw [done_setState_of_ne hs]
  exact ⟨fun h => h.1, fun h => ⟨h, fun hm => hn (hm ▸ h)⟩⟩

theorem Kept.forEach {step : String → RuntimeStep F} (hstep : ∀ n r, Kept r (step n r).1) :
    ∀ (ns : List String) (r : Runtime F), Kept r (forEach step ns r).1
  | [], r => Kept.refl r
  | n :: ns, r => by
      have h := hstep n r
      rw [Runtime.forEach]
      generalize step n r = out at h ⊢
      rcases out with ⟨r₁, e | _⟩
      · exact h
      · exact h.trans (Kept.forEach hstep ns r₁)

/-- **Loading the classes of a parcel starts nothing.** -/
theorem kept_inheritTo : ∀ (depth : Nat) (n : String) (r : Runtime F),
    Kept r (inheritTo depth n r).1
  | 0, _, r => Kept.refl r
  | depth + 1, n, r => by
      rw [inheritTo]
      cases hp : r.parcel? n with
      | none => exact Kept.refl r
      | some p =>
          cases hs : p.state with
          | inheritanceInProgress => simp only [hs]; exact Kept.refl r
          | inheritanceDone => simp only [hs]; exact Kept.refl r
          | parcelDone => simp only [hs]; exact Kept.refl r
          | notStarted =>
              simp only [hs]
              have hn : ¬ r.Done n := by
                rw [Done, state?, hp, Option.map_some, hs]
                decide
              -- `n` is not done, here and after the others: its marks do not count
              have hmark : Kept r (r.setState n .inheritanceInProgress) :=
                Kept.setState (by decide) hn
              have hrest := hmark.trans
                (Kept.forEach (kept_inheritTo depth) p.spec.inherited _)
              have hback : ∀ (r₂ : Runtime F) (s : ParcelState), Kept r r₂ → s ≠ .parcelDone →
                  Kept r (r₂.setState n s) := fun _ _ h hs' =>
                h.trans (Kept.setState hs' (fun hd => hn ((h.done n).mp hd)))
              generalize Runtime.forEach (inheritTo depth) p.spec.inherited
                (r.setState n .inheritanceInProgress) = out at hrest
              rcases out with ⟨r₂, e | _⟩
              · exact hback r₂ .notStarted hrest (by decide)
              · dsimp only
                cases r₂.registry.bootstrap p.spec.classes with
                | error e => exact hback r₂ .notStarted hrest (by decide)
                | ok registry =>
                    have hreg : Kept r { r₂ with registry } := ⟨hrest.spec?, hrest.done, hrest.log⟩
                    exact hback _ .inheritanceDone hreg (by decide)

theorem kept_bootstrapInheritance (n : String) (r : Runtime F) :
    Kept r (bootstrapInheritance n r).1 :=
  kept_inheritTo _ n r

/-! ## Runs -/

/-- What may be asked of a runtime. -/
inductive Call (F : Type) where
  | register (spec : ParcelSpec F)
  | inherit (name : String)
  | start (name : String)
deriving DecidableEq, Repr

/-- Carries out a call. -/
def Call.run : Call F → RuntimeStep F
  | .register spec => registerParcel spec
  | .inherit name => bootstrapInheritance name
  | .start name => bootstrapParcel name

/-- The runtime after some calls, whether they succeed or fail. -/
def after (calls : List (Call F)) : Runtime F := calls.foldl (fun r c => (c.run r).1) {}

theorem after_append_singleton (calls : List (Call F)) (c : Call F) :
    after (calls ++ [c]) = (c.run (after calls)).1 := by
  rw [after, List.foldl_append]
  rfl

end Runtime

end ClassTables
