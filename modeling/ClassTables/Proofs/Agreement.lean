import ClassTables.Proofs.BootProgram
import ClassTables.Proofs.ParcelOrder
/-!
# The generated program does what the runtime does

A hierarchy starts its parcels in two ways: by the bootstrap functions that are generated for it,
run as a program (`Hierarchy.bootProgram`), and by a `Runtime` in which the same parcels are
registered.  Here both get the same calls.  While they go on, the numbers of the program stand for
the states of the runtime and the recorded events for its registry and its log (`Mirrors`), and each
step keeps them so, in whatever way the parcels inherit from each other and start each other.

Main statements: one for the calls inside a walk (`LoadRun.mirrored`, `StartRun.mirrored`), and
`bootProgram_agrees` for any sequence of calls from outside.
-/

namespace ClassTables

namespace Runtime

variable {d : Declarations} {h : Hierarchy} {target : Target} {r r' : Runtime String}
  {m : BootMemory} {past evs : List BootEvent} {n : String} {s : ParcelState}

/-! ## The same states -/

/-- The numbers of the program stand for the states of the runtime. -/
def SameStates (h : Hierarchy) (r : Runtime String) (m : BootMemory) : Prop :=
  ∀ p ∈ h.parcels, (r.state? p.name).map (·.rank) = some (m.state p.name)

theorem SameStates.setState (hs : SameStates h r m) :
    SameStates h (r.setState n s) (m.setState n s.rank) := by
  intro p hp
  have hold := hs p hp
  rw [state?_setState, BootMemory.setState]
  dsimp only
  by_cases hn : p.name = n
  · rw [if_pos hn, hn, Function.update_self]
    rw [hn, Option.map_eq_some_iff] at hold
    obtain ⟨t, ht, -⟩ := hold
    rw [ht]
    rfl
  · rw [if_neg hn, Function.update_of_ne hn, hold]

theorem SameStates.state_eq (hs : SameStates h r m) {q : Parcel} (hq : q ∈ h.parcels)
    {p : ParcelEntry String} (hp : r.parcel? q.name = some p) : m.state q.name = p.state.rank := by
  have hold := hs q hq
  rw [state?_of_parcel? hp, Option.map_some, Option.some.injEq] at hold
  exact hold.symm

/-- The memory of the program shows what the runtime shows. -/
structure Mirrors (h : Hierarchy) (target : Target) (past : List BootEvent) (r : Runtime String)
    (m : BootMemory) : Prop where
  registered : Registered h target r
  ledger : Ledger past r
  states : SameStates h r m
  events : m.events = past

/-- What the registered specification of a parcel says. -/
theorem Registered.parcel?_spec (hr : Registered h target r) {q : Parcel} (hq : q ∈ h.parcels)
    {p : ParcelEntry String} (hp : r.parcel? q.name = some p) :
    p.spec.inherited = (h.inheritedParcels q).map (·.name) ∧
      p.spec.prereqs = (h.prereqsOf q).map (·.name) ∧
        p.spec.classes.length = (h.dynamicClassesOf q).length ∧
          p.spec.initEvents = [.init q.name] := by
  obtain ⟨classes, hclasses, hspec⟩ := hr.spec? q hq
  rw [spec?_of_parcel? hp, Option.some.injEq] at hspec
  rw [hspec, h.dynamicClassesOf_eq]
  exact ⟨rfl, rfl, (mapM_eq_ok_iff.mp hclasses).length_eq.symm, rfl⟩

theorem Registered.parcel?_ne_none (hr : Registered h target r) {q : Parcel} (hq : q ∈ h.parcels) :
    r.parcel? q.name ≠ none := by
  obtain ⟨classes, -, hspec⟩ := hr.spec? q hq
  intro hnone
  rw [Runtime.spec?, hnone] at hspec
  cases hspec

section Marks

variable {p : ParcelEntry String} {count : Nat} {registry : Registry String}

theorem Mirrors.mark (hm : Mirrors h target past r m) (hp : r.parcel? n = some p)
    (hs : p.state = .notStarted) :
    Mirrors h target past (r.setState n .inheritanceInProgress) (m.setState n 1) where
  registered := hm.registered.of_specs (specs_setState _)
  ledger := hm.ledger.mark hp hs
  states := hm.states.setState
  events := hm.events

theorem Mirrors.load (hm : Mirrors h target past r m) (hl : Ledger (past ++ [.load n count])
    ({ r with registry }.setState n .inheritanceDone)) :
    Mirrors h target (past ++ [.load n count]) ({ r with registry }.setState n .inheritanceDone)
      ((m.record (.load n count)).setState n 2) where
  registered := hm.registered.of_specs (specs_setState _)
  ledger := hl
  states := by
    have hsame : SameStates h { r with registry } (m.record (.load n count)) := hm.states
    exact hsame.setState
  events := by
    rw [BootMemory.setState, BootMemory.record, hm.events]

theorem Mirrors.markDone (hm : Mirrors h target past r m) (hn : r.Loaded n) :
    Mirrors h target past (r.setState n .parcelDone) (m.setState n 3) where
  registered := hm.registered.of_specs (specs_setState _)
  ledger := hm.ledger.markDone hn
  states := hm.states.setState
  events := hm.events

theorem Mirrors.runInit (hm : Mirrors h target past r m) (hinit : p.spec.initEvents = [.init n]) :
    Mirrors h target (past ++ p.spec.initEvents) (runInit p.spec r) (m.record (.init n)) where
  registered := hm.registered.of_specs (specs_runInit _)
  ledger := hm.ledger.runInit p.spec
  states := by
    intro q hq
    rw [state?, parcel?, parcels_runInit]
    exact hm.states q hq
  events := by
    rw [BootMemory.record, hm.events, hinit]

theorem Mirrors.waiting_le (hm : Mirrors h target past r m) : r.waiting ≤ h.parcels.length :=
  hm.registered.length ▸ r.waiting_le

theorem Mirrors.not_done (hm : Mirrors h target past r m) {q : Parcel} (hq : q ∈ h.parcels)
    (hp : r.parcel? q.name = some p) (hs : p.state ≠ .parcelDone) : ¬ 3 ≤ m.state q.name := by
  rw [hm.states.state_eq hq hp]
  cases hstate : p.state with
  | parcelDone => exact absurd hstate hs
  | notStarted => decide
  | inheritanceInProgress => decide
  | inheritanceDone => decide

end Marks

/-! ## How the program answers -/

/-- The program comes back with the states of the runtime, or it ends where the runtime finds that
parcels inherit from each other.  There only the events agree: the runtime takes its marks back, and
the program leaves them. -/
inductive Answer (h : Hierarchy) (target : Target) (past : List BootEvent) (r : Runtime String) :
    Except BootstrapError Unit → BootMemory × Flow → Prop
  | done {m : BootMemory} : Mirrors h target past r m → Answer h target past r (.ok ()) (m, .next)
  | aborted {m : BootMemory} {n : String} : m.events = past →
      Answer h target past r (.error (.cyclicInheritance n)) (m, .aborted)

section Answers

variable {out : BootMemory × Flow} {e : BootstrapError} {res : Except BootstrapError Unit}
  {past' : List BootEvent} {call : String → BootExec} {f : String} {fs : List String}

theorem Answer.exists_done (ha : Answer h target past r (.ok ()) out) :
    ∃ m, out = (m, .next) ∧ Mirrors h target past r m := by
  cases ha with
  | done hm => exact ⟨_, rfl, hm⟩

theorem Answer.exists_aborted (ha : Answer h target past r (.error e) out) :
    ∃ m n, out = (m, .aborted) ∧ e = .cyclicInheritance n ∧ m.events = past := by
  cases ha with
  | aborted hev => exact ⟨_, _, rfl, rfl, hev⟩

/-- Behind a call that comes back the next ones are made. -/
theorem Answer.cons_ok (ha : Answer h target past r (.ok ()) (call f m))
    (hrest : ∀ m', Mirrors h target past r m' →
      Answer h target past' r' res (callAll call fs m')) :
    Answer h target past' r' res (callAll call (f :: fs) m) := by
  obtain ⟨m', hout, hm'⟩ := ha.exists_done
  rw [callAll_cons_next hout]
  exact hrest m' hm'

theorem Answer.cons_error (ha : Answer h target past r (.error e) (call f m)) :
    Answer h target past r' (.error e) (callAll call (f :: fs) m) := by
  obtain ⟨m', n, hout, rfl, hev⟩ := ha.exists_aborted
  rw [callAll_cons_aborted hout]
  exact .aborted hev

end Answers

/-! ## One parcel -/

section OneParcel

variable (hpre : (h.parcels.map (·.lowerPrefix)).Nodup) {q : Parcel} (hq : q ∈ h.parcels)
  (hm : Mirrors h target past r m) {p : ParcelEntry String} (hp : r.parcel? q.name = some p)
  {depth : Nat} {past' : List BootEvent} {r₁ r₂ : Runtime String} {e : BootstrapError}

include hpre hq hm hp

theorem inherit_cyclic (hs : p.state = .inheritanceInProgress) :
    Answer h target past r (.error (.cyclicInheritance q.name))
      (callTo h.bootProgram (depth + 1) q.bootInheritanceName m) := by
  have hstate := hm.states.state_eq hq hp
  rw [hs] at hstate
  rw [Hierarchy.callTo_bootInheritance_waiting hpre hq hstate]
  exact .aborted hm.events

theorem inherit_known (hs : p.state = .inheritanceDone ∨ p.state = .parcelDone) :
    Answer h target past r (.ok ())
      (callTo h.bootProgram (depth + 1) q.bootInheritanceName m) := by
  have hrank : 2 ≤ m.state q.name := by
    rw [hm.states.state_eq hq hp]
    rcases hs with hs | hs
    · rw [hs]
      decide
    · rw [hs]
      decide
  rw [Hierarchy.callTo_bootInheritance_loaded hpre hq hrank]
  exact .done hm

section NotStarted

variable (hs : p.state = .notStarted)

include hs

/-- The program ends among the parcels that the parcel inherits from. -/
theorem inherit_failed (hbelow : Answer h target past' r₁ (.error e)
    (callAll (callTo h.bootProgram depth) ((h.inheritedParcels q).map (·.bootInheritanceName))
      (m.setState q.name 1))) :
    Answer h target past' r₁ (.error e)
      (callTo h.bootProgram (depth + 1) q.bootInheritanceName m) := by
  have hstate := hm.states.state_eq hq hp
  rw [hs] at hstate
  obtain ⟨m₁, n, hout, rfl, hev⟩ := hbelow.exists_aborted
  rw [Hierarchy.callTo_bootInheritance_notStarted hpre hq hstate, hout]
  exact .aborted hev

/-- Behind the parcels that it inherits from, the parcel loads its classes. -/
theorem inherit_loaded {registry : Registry String}
    (hsub : LoadRun p.spec.inherited (r.setState q.name .inheritanceInProgress) evs r₁ (.ok ()))
    (hreg : r₁.registry.bootstrap p.spec.classes = .ok registry)
    (hbelow : Answer h target past' r₁ (.ok ())
      (callAll (callTo h.bootProgram depth) ((h.inheritedParcels q).map (·.bootInheritanceName))
        (m.setState q.name 1))) :
    Answer h target (past' ++ [.load q.name p.spec.classes.length])
      ({ r₁ with registry }.setState q.name .inheritanceDone) (.ok ())
        (callTo h.bootProgram (depth + 1) q.bootInheritanceName m) := by
  have hstate := hm.states.state_eq hq hp
  rw [hs] at hstate
  obtain ⟨-, -, hcount, -⟩ := hm.registered.parcel?_spec hq hp
  obtain ⟨hnew, hspec⟩ := hsub.marked hp
  obtain ⟨m₁, hout, hm₁⟩ := hbelow.exists_done
  rw [Hierarchy.callTo_bootInheritance_notStarted hpre hq hstate, hout, hcount]
  exact .done (hm₁.load (hm₁.ledger.load _ (hsub.state?_marked hp) hnew hspec
    (hsub.loaded_of_ok rfl) hreg))

end NotStarted

theorem start_known (hs : p.state = .parcelDone) : Answer h target past r (.ok ())
    (callTo h.bootProgram (depth + 1) q.bootParcelName m) := by
  have hstate := hm.states.state_eq hq hp
  rw [hs] at hstate
  rw [Hierarchy.callTo_bootParcel hpre hq, hstate, if_pos (by decide)]
  exact .done hm

section NotDone

variable (hs : p.state ≠ .parcelDone)

include hs

theorem start_notLoaded (hload : Answer h target past' r₁ (.error e)
    (callTo h.bootProgram depth q.bootInheritanceName m)) :
    Answer h target past' r₁ (.error e) (callTo h.bootProgram (depth + 1) q.bootParcelName m) := by
  obtain ⟨m₁, n, hout, rfl, hev⟩ := hload.exists_aborted
  rw [Hierarchy.callTo_bootParcel_not_done hpre hq (hm.not_done hq hp hs), hout]
  exact .aborted hev

section ClassesLoaded

variable {m₁ : BootMemory}
  (hload : callTo h.bootProgram (depth + 1) q.bootInheritanceName m = (m₁, .next))

include hload

/-- The program ends among the prerequisites of the parcel. -/
theorem start_failed (hbelow : Answer h target past' r₂ (.error e)
    (callAll (callTo h.bootProgram (depth + 1)) ((h.prereqsOf q).map (·.bootParcelName))
      (m₁.setState q.name 3))) :
    Answer h target past' r₂ (.error e)
      (callTo h.bootProgram (depth + 2) q.bootParcelName m) := by
  obtain ⟨m₂, n, hout, rfl, hev⟩ := hbelow.exists_aborted
  rw [Hierarchy.callTo_bootParcel_not_done hpre hq (hm.not_done hq hp hs), hload]
  dsimp only
  rw [callAll_append, hout]
  exact .aborted hev

/-- Behind its classes and its prerequisites, the parcel runs its initializer. -/
theorem start_started (hbelow : Answer h target past' r₂ (.ok ())
    (callAll (callTo h.bootProgram (depth + 1)) ((h.prereqsOf q).map (·.bootParcelName))
      (m₁.setState q.name 3))) :
    Answer h target (past' ++ p.spec.initEvents) (r₂.runInit p.spec) (.ok ())
      (callTo h.bootProgram (depth + 2) q.bootParcelName m) := by
  obtain ⟨-, -, -, hinit⟩ := hm.registered.parcel?_spec hq hp
  obtain ⟨m₂, hout, hm₂⟩ := hbelow.exists_done
  rw [Hierarchy.callTo_bootParcel_not_done hpre hq (hm.not_done hq hp hs), hload]
  dsimp only
  rw [callAll_append, hout]
  dsimp only
  rw [callAll_singleton, Hierarchy.callTo_init hpre hq]
  exact .done (hm₂.runInit hinit)

end ClassesLoaded

end NotDone

end OneParcel

/-! ## Whole walks -/

section Walks

variable {ns : List String} {qs : List Parcel} {res : Except BootstrapError Unit} {depth : Nat}

/-- **Loading, the program does what the runtime does.** -/
theorem LoadRun.mirrored (hb : d.build = .ok h) (hpre : (h.parcels.map (·.lowerPrefix)).Nodup)
    (hrun : LoadRun ns r evs r' res) (hns : ns = qs.map (·.name)) (hqs : ∀ q ∈ qs, q ∈ h.parcels)
    (hm : Mirrors h target past r m) (hd : r.waiting < depth) :
    Answer h target (past ++ evs) r' res
      (callAll (callTo h.bootProgram depth) (qs.map (·.bootInheritanceName)) m) := by
  induction hrun generalizing qs past m depth with
  | nil =>
      rw [eq_comm, List.map_eq_nil_iff] at hns
      subst hns
      rw [List.append_nil]
      exact .done hm
  | unknown hp =>
      obtain ⟨q, qs, rfl, rfl, rfl⟩ := List.map_eq_cons_iff.mp hns.symm
      exact absurd hp (hm.registered.parcel?_ne_none (hqs q List.mem_cons_self))
  | cyclic hp hs =>
      obtain ⟨q, qs, rfl, rfl, rfl⟩ := List.map_eq_cons_iff.mp hns.symm
      obtain ⟨k, rfl⟩ := Nat.exists_eq_succ_of_ne_zero (Nat.ne_zero_of_lt hd)
      rw [List.append_nil]
      exact (inherit_cyclic hpre (hqs q List.mem_cons_self) hm hp hs).cons_error
  | known hp hs _ ih =>
      obtain ⟨q, qs, rfl, rfl, rfl⟩ := List.map_eq_cons_iff.mp hns.symm
      obtain ⟨k, rfl⟩ := Nat.exists_eq_succ_of_ne_zero (Nat.ne_zero_of_lt hd)
      rw [List.forall_mem_cons] at hqs
      exact (inherit_known hpre hqs.1 hm hp hs).cons_ok fun m' hm' => ih rfl hqs.2 hm' hd
  | failed hp hs _ ih =>
      obtain ⟨q, qs, rfl, rfl, rfl⟩ := List.map_eq_cons_iff.mp hns.symm
      obtain ⟨k, rfl⟩ := Nat.exists_eq_succ_of_ne_zero (Nat.ne_zero_of_lt hd)
      rw [List.forall_mem_cons] at hqs
      obtain ⟨hinh, -, -, -⟩ := hm.registered.parcel?_spec hqs.1 hp
      have hlt := Nat.lt_of_lt_of_le (waiting_mark_lt hp hs) (Nat.le_of_lt_succ hd)
      have hbelow := ih hinh (fun k hk => inheritedParcels_subset hb hk) (hm.mark hp hs) hlt
      exact (inherit_failed hpre hqs.1 hm hp hs hbelow).cons_error
  | refused hp hs hsub hreg _ =>
      -- this does not happen: what a hierarchy holds is not refused
      obtain ⟨registry, hok⟩ := hsub.accepts hb hm.registered.holds hm.ledger hp hs
      rw [hreg] at hok
      cases hok
  | loaded hp hs hsub hreg _ ih ih' =>
      obtain ⟨q, qs, rfl, rfl, rfl⟩ := List.map_eq_cons_iff.mp hns.symm
      obtain ⟨k, rfl⟩ := Nat.exists_eq_succ_of_ne_zero (Nat.ne_zero_of_lt hd)
      rw [List.forall_mem_cons] at hqs
      obtain ⟨hinh, -, -, -⟩ := hm.registered.parcel?_spec hqs.1 hp
      have hlt := Nat.lt_of_lt_of_le (waiting_mark_lt hp hs) (Nat.le_of_lt_succ hd)
      have hbelow := ih hinh (fun k hk => inheritedParcels_subset hb hk) (hm.mark hp hs) hlt
      have hone := LoadRun.loaded hp hs hsub hreg .nil
      have hle := hone.settles.waiting_le hone.specs
      rw [List.append_cons, ← List.append_assoc, ← List.append_assoc]
      exact (inherit_loaded hpre hqs.1 hm hp hs hsub hreg hbelow).cons_ok fun m' hm' =>
        ih' rfl hqs.2 hm' (Nat.lt_of_le_of_lt hle hd)

/-- Loading one parcel, as the program does it before it starts the parcel. -/
theorem LoadRun.mirrored_one {q : Parcel} (hb : d.build = .ok h)
    (hpre : (h.parcels.map (·.lowerPrefix)).Nodup) (hrun : LoadRun [q.name] r evs r' res)
    (hq : q ∈ h.parcels) (hm : Mirrors h target past r m) (hd : r.waiting < depth) :
    Answer h target (past ++ evs) r' res
      (callTo h.bootProgram depth q.bootInheritanceName m) := by
  have hone : LoadRun ([q].map (·.name)) r evs r' res := hrun
  have hout := hone.mirrored hb hpre rfl (List.forall_mem_singleton.mpr hq) hm hd
  rwa [List.map_singleton, callAll_singleton] at hout

/-- Behind its classes, the program marks a parcel as done just as the runtime does. -/
theorem LoadRun.exists_marked {q : Parcel} (hb : d.build = .ok h)
    (hpre : (h.parcels.map (·.lowerPrefix)).Nodup) (hrun : LoadRun [q.name] r evs r' (.ok ()))
    (hq : q ∈ h.parcels) (hm : Mirrors h target past r m) (hd : r.waiting < depth) :
    ∃ m', callTo h.bootProgram depth q.bootInheritanceName m = (m', .next) ∧
      Mirrors h target (past ++ evs) (r'.setState q.name .parcelDone) (m'.setState q.name 3) := by
  obtain ⟨m', hout, hm'⟩ := (hrun.mirrored_one hb hpre hq hm hd).exists_done
  exact ⟨m', hout, hm'.markDone (hrun.loaded_of_ok rfl _ List.mem_cons_self)⟩

/-- **Starting, the program does what the runtime does.** -/
theorem StartRun.mirrored (hb : d.build = .ok h) (hpre : (h.parcels.map (·.lowerPrefix)).Nodup)
    (hrun : StartRun ns r evs r' res) (hns : ns = qs.map (·.name)) (hqs : ∀ q ∈ qs, q ∈ h.parcels)
    (hm : Mirrors h target past r m) (hd : r.unfinished + h.parcels.length < depth) :
    Answer h target (past ++ evs) r' res
      (callAll (callTo h.bootProgram depth) (qs.map (·.bootParcelName)) m) := by
  induction hrun generalizing qs past m depth with
  | nil =>
      rw [eq_comm, List.map_eq_nil_iff] at hns
      subst hns
      rw [List.append_nil]
      exact .done hm
  | unknown hp =>
      obtain ⟨q, qs, rfl, rfl, rfl⟩ := List.map_eq_cons_iff.mp hns.symm
      exact absurd hp (hm.registered.parcel?_ne_none (hqs q List.mem_cons_self))
  | known hp hs _ ih =>
      obtain ⟨q, qs, rfl, rfl, rfl⟩ := List.map_eq_cons_iff.mp hns.symm
      obtain ⟨k, rfl⟩ := Nat.exists_eq_succ_of_ne_zero (Nat.ne_zero_of_lt hd)
      rw [List.forall_mem_cons] at hqs
      exact (start_known hpre hqs.1 hm hp hs).cons_ok fun m' hm' => ih rfl hqs.2 hm' hd
  | notLoaded hp hs hload =>
      obtain ⟨q, qs, rfl, rfl, rfl⟩ := List.map_eq_cons_iff.mp hns.symm
      obtain ⟨k, rfl⟩ := Nat.exists_eq_succ_of_ne_zero (Nat.ne_zero_of_lt hd)
      rw [List.forall_mem_cons] at hqs
      have hlt := unfinished_mark_lt hp hs hload
      have hle := hm.waiting_le
      have hfirst := hload.mirrored_one hb hpre hqs.1 hm (show _ < k by omega)
      exact (start_notLoaded hpre hqs.1 hm hp hs hfirst).cons_error
  | failed hp hs hload hsub ih =>
      obtain ⟨q, qs, rfl, rfl, rfl⟩ := List.map_eq_cons_iff.mp hns.symm
      rw [List.forall_mem_cons] at hqs
      have hlt := unfinished_mark_lt hp hs hload
      have hle := hm.waiting_le
      -- room for the parcel and, inside it, for one more call
      obtain ⟨k, rfl⟩ : ∃ k, depth = k + 2 := ⟨depth - 2, by omega⟩
      obtain ⟨-, hprereqs, -, -⟩ := hm.registered.parcel?_spec hqs.1 hp
      obtain ⟨m₁, hout, hm₁⟩ := hload.exists_marked hb hpre hqs.1 hm (show _ < k + 1 by omega)
      have hbelow := ih hprereqs (fun k hk => prereqsOf_subset hk) hm₁ (show _ < k + 1 by omega)
      rw [← List.append_assoc]
      exact (start_failed hpre hqs.1 hm hp hs hout hbelow).cons_error
  | started hp hs hload hsub _ ih ih' =>
      obtain ⟨q, qs, rfl, rfl, rfl⟩ := List.map_eq_cons_iff.mp hns.symm
      rw [List.forall_mem_cons] at hqs
      have hlt := unfinished_mark_lt hp hs hload
      have hle := hm.waiting_le
      obtain ⟨k, rfl⟩ : ∃ k, depth = k + 2 := ⟨depth - 2, by omega⟩
      obtain ⟨-, hprereqs, -, -⟩ := hm.registered.parcel?_spec hqs.1 hp
      obtain ⟨m₁, hout, hm₁⟩ := hload.exists_marked hb hpre hqs.1 hm (show _ < k + 1 by omega)
      have hbelow := ih hprereqs (fun k hk => prereqsOf_subset hk) hm₁ (show _ < k + 1 by omega)
      have hone := StartRun.started hp hs hload hsub .nil
      have hless := unfinished_le_of_done hone.specs hone.done
      simp only [← List.append_assoc]
      exact (start_started hpre hqs.1 hm hp hs hout hbelow).cons_ok fun m' hm' =>
        ih' rfl hqs.2 hm' (show _ < k + 2 by omega)

end Walks

end Runtime

/-! ## Calls from outside -/

open ClassTables.Runtime

/-- A call from outside, of the program as of the runtime. -/
inductive BootCall where
  | inherit (p : Parcel)
  | start (p : Parcel)
deriving DecidableEq, Repr

namespace BootCall

def parcel : BootCall → Parcel
  | inherit p => p
  | start p => p

/-- The function of the program that is called. -/
def function : BootCall → String
  | inherit p => p.bootInheritanceName
  | start p => p.bootParcelName

/-- The same call of a runtime. -/
def run : BootCall → RuntimeStep String
  | inherit p => bootstrapInheritance p.name
  | start p => bootstrapParcel p.name

/-- The events of a walk of the runtime. -/
def Walks : BootCall → Runtime String → List BootEvent → Runtime String →
    Except BootstrapError Unit → Prop
  | inherit p => LoadRun [p.name]
  | start p => StartRun [p.name]

/-- A call of the runtime with the events on its way. -/
structure Does (c : BootCall) (r : Runtime String) (evs : List BootEvent) (r' : Runtime String)
    (res : Except BootstrapError Unit) : Prop where
  run : c.run r = (r', res)
  walks : c.Walks r evs r' res

theorem exists_does (c : BootCall) (r : Runtime String) :
    ∃ evs, c.Does r evs (c.run r).1 (c.run r).2 := by
  cases c with
  | inherit p =>
      obtain ⟨evs, hrun⟩ := exists_loadRun p.name r
      exact ⟨evs, rfl, hrun⟩
  | start p =>
      obtain ⟨evs, hrun⟩ := exists_startRun p.name r
      exact ⟨evs, rfl, hrun⟩

end BootCall

/-- What there is after a call of a run: all events so far, the runtime, and its answer. -/
structure BootRecord where
  events : List BootEvent
  runtime : Runtime String
  result : Except BootstrapError Unit

/-- The calls of a runtime, up to and including the first that fails. -/
inductive BootRun : List BootCall → List BootEvent → Runtime String → List BootRecord → Prop
  | nil {past : List BootEvent} {r : Runtime String} : BootRun [] past r []
  | next {c : BootCall} {cs : List BootCall} {past evs : List BootEvent} {r r' : Runtime String}
      {records : List BootRecord} : c.Does r evs r' (.ok ()) → BootRun cs (past ++ evs) r' records →
      BootRun (c :: cs) past r (⟨past ++ evs, r', .ok ()⟩ :: records)
  | failed {c : BootCall} {cs : List BootCall} {past evs : List BootEvent} {r r' : Runtime String}
      {e : BootstrapError} : c.Does r evs r' (.error e) →
      BootRun (c :: cs) past r [⟨past ++ evs, r', .error e⟩]

theorem exists_bootRun : ∀ (cs : List BootCall) (past : List BootEvent) (r : Runtime String),
    ∃ records, BootRun cs past r records
  | [], _, _ => ⟨[], .nil⟩
  | c :: cs, past, r => by
      obtain ⟨evs, hdoes⟩ := c.exists_does r
      generalize c.run r = out at hdoes
      rcases out with ⟨r', e | _⟩
      · exact ⟨_, .failed hdoes⟩
      · obtain ⟨records, hrest⟩ := exists_bootRun cs (past ++ evs) r'
        exact ⟨_, .next hdoes hrest⟩

/-- The calls of the program, up to and including the first that does not come back. -/
def Hierarchy.runCalls (h : Hierarchy) (depth : Nat) :
    List BootCall → BootMemory → List (BootMemory × Flow)
  | [], _ => []
  | c :: cs, m =>
    match callTo h.bootProgram depth c.function m with
    | (m', .next) => (m', .next) :: h.runCalls depth cs m'
    | out => [out]

/-- The program ends a call as the runtime does. -/
structure Agree (h : Hierarchy) (b : BootRecord) (out : BootMemory × Flow) : Prop where
  next : out.2 = .next ↔ b.result = .ok ()
  aborted : out.2 = .aborted ↔ ∃ n, b.result = .error (.cyclicInheritance n)
  ends : out.2 = .next ∨ out.2 = .aborted
  events : out.1.events = b.events
  states : b.result = .ok () → SameStates h b.runtime out.1
  /-- The events account for the classes and the log of the runtime. -/
  ledger : Ledger b.events b.runtime

section Runs

variable {d : Declarations} {h : Hierarchy} {target : Target} {r r' : Runtime String}
  {m : BootMemory} {past evs : List BootEvent} {res : Except BootstrapError Unit} {depth : Nat}

theorem BootCall.Does.ledger {c : BootCall} (hc : c.Does r evs r' res) (hl : Ledger past r) :
    Ledger (past ++ evs) r' := by
  cases c with
  | inherit p => exact LoadRun.ledger hc.walks hl
  | start p => exact StartRun.ledger hc.walks hl

theorem BootCall.Does.mirrored {c : BootCall} (hb : d.build = .ok h)
    (hpre : (h.parcels.map (·.lowerPrefix)).Nodup) (hc : c.Does r evs r' res)
    (hp : c.parcel ∈ h.parcels) (hm : Mirrors h target past r m)
    (hd : 2 * h.parcels.length < depth) :
    Answer h target (past ++ evs) r' res (callTo h.bootProgram depth c.function m) := by
  cases c with
  | inherit p =>
      have hle := hm.waiting_le
      exact LoadRun.mirrored_one hb hpre hc.walks hp hm (by omega)
  | start p =>
      have hle : r.unfinished ≤ h.parcels.length := hm.registered.length ▸ r.unfinished_le
      have hrun : StartRun ([p].map (·.name)) r evs r' res := hc.walks
      have hout := hrun.mirrored hb hpre rfl (List.forall_mem_singleton.mpr hp) hm
        (show _ < depth by omega)
      rwa [List.map_singleton, callAll_singleton] at hout

theorem BootRun.agrees {cs : List BootCall} {records : List BootRecord} (hb : d.build = .ok h)
    (hpre : (h.parcels.map (·.lowerPrefix)).Nodup) (hrun : BootRun cs past r records)
    (hcs : ∀ c ∈ cs, c.parcel ∈ h.parcels) (hm : Mirrors h target past r m)
    (hd : 2 * h.parcels.length < depth) :
    List.Forall₂ (Agree h) records (h.runCalls depth cs m) := by
  induction hrun generalizing m with
  | nil => exact .nil
  | next hdoes _ ih =>
      rw [List.forall_mem_cons] at hcs
      obtain ⟨m', hout, hm'⟩ := (hdoes.mirrored hb hpre hcs.1 hm hd).exists_done
      rw [Hierarchy.runCalls, hout]
      refine .cons ⟨?_, ?_, Or.inl rfl, hm'.events, fun _ => hm'.states, hm'.ledger⟩ (ih hcs.2 hm')
      · simp
      · simp
  | failed hdoes =>
      rw [List.forall_mem_cons] at hcs
      have hl := hdoes.ledger hm.ledger
      obtain ⟨m', n, hout, rfl, hev⟩ := (hdoes.mirrored hb hpre hcs.1 hm hd).exists_aborted
      rw [Hierarchy.runCalls, hout]
      refine .cons ⟨?_, ?_, Or.inr rfl, hev, ?_, hl⟩ .nil
      · simp
      · simp
      · intro hok
        cases hok

/-- Where parcels have only been registered, nothing has happened. -/
theorem orderly_register {F : Type} (ss : List (ParcelSpec F)) :
    Orderly [] (after (ss.map .register)) := by
  induction ss using List.reverseRecOn with
  | nil => exact orderly_empty
  | append_singleton ss s ih =>
      rw [List.map_append, List.map_singleton, after_append_singleton, Call.run]
      exact ih.registerParcel s

theorem mirrors_after (hb : d.build = .ok h) {specs : List (ParcelSpec String)}
    (hs : h.parcels.mapM (h.runtimeParcel · target) = .ok specs) :
    Mirrors h target [] (after (specs.map fun s => .register { s with hasInit := true })) {} := by
  have hregistered := registered_after hb hs
  have horderly := orderly_register (specs.map fun s => { s with hasInit := true })
  rw [List.map_map] at horderly
  refine ⟨hregistered, horderly.ledger, fun p hp => ?_, rfl⟩
  obtain ⟨e, he⟩ := Option.ne_none_iff_exists'.mp (hregistered.parcel?_ne_none hp)
  rw [state?_of_parcel? he, Option.map_some]
  have hn := state?_of_parcel? he
  have hwaits := horderly.settled p.name
  have hloaded := (horderly.ledger.loaded p.name).not.mpr List.not_mem_nil
  cases hstate : e.state with
  | notStarted => rfl
  | inheritanceInProgress => exact absurd (hstate ▸ hn) hwaits
  | inheritanceDone => exact absurd (Or.inl (hstate ▸ hn)) hloaded
  | parcelDone => exact absurd (Or.inr (hstate ▸ hn)) hloaded

end Runs

/-- **The generated program does what the runtime does.**  Under distinct prefixes, both go through
every sequence of calls to the same point: the program aborts exactly where the runtime reports
cyclic inheritance, and no call goes wrong in another way.  Behind each call the same classes have
been loaded and the same initializers run, in the same order, and where the call came back, all
parcels are in the same state.  More than two nested calls for each parcel are never needed. -/
theorem bootProgram_agrees {d : Declarations} {h : Hierarchy} {target : Target}
    {specs : List (ParcelSpec String)} {calls : List BootCall} {depth : Nat}
    (hb : d.build = .ok h) (hpre : (h.parcels.map (·.lowerPrefix)).Nodup)
    (hs : h.parcels.mapM (h.runtimeParcel · target) = .ok specs)
    (hcalls : ∀ c ∈ calls, c.parcel ∈ h.parcels) (hd : 2 * h.parcels.length < depth) :
    ∃ records,
      BootRun calls [] (after (specs.map fun s => .register { s with hasInit := true })) records ∧
        List.Forall₂ (Agree h) records (h.runCalls depth calls {}) := by
  obtain ⟨records, hrun⟩ := exists_bootRun calls []
    (after (specs.map fun s => .register { s with hasInit := true }))
  exact ⟨records, hrun, hrun.agrees hb hpre hcalls (mirrors_after hb hs) hd⟩

/-- Two parcels that inherit from each other, and one that stands alone. -/
def tangled : Declarations :=
  { parcels := [{ name := "Loose" }, { name := "Left" }, { name := "Right", prereqs := ["Loose"] }]
    classes :=
      [{ name := "Left::Root", parcel := "Left" },
       { name := "Right::Leaf", parcel := "Right", parent := some "Left::Root" },
       { name := "Left::Tip", parcel := "Left", parent := some "Right::Leaf" }] }

theorem tangled_agrees : ∃ h specs records, tangled.build = .ok h ∧
    h.parcels.mapM (h.runtimeParcel · .lp64) = .ok specs ∧
      BootRun (h.parcels.map .start) []
        (after (specs.map fun s => .register { s with hasInit := true })) records ∧
        List.Forall₂ (Agree h) records (h.runCalls 7 (h.parcels.map .start) {}) ∧
          (h.runCalls 7 (h.parcels.map .start) {}).map (·.2) = [.next, .aborted] := by
  have hspecs : (tangled.build.toOption.bind fun h =>
      (h.parcels.mapM (h.runtimeParcel · .lp64)).toOption).isSome = true := by
    decide +kernel
  have hfacts : (tangled.build.toOption.map fun h => (decide (h.parcels.map (·.lowerPrefix)).Nodup,
      h.parcels.length, (h.runCalls 7 (h.parcels.map .start) {}).map (·.2))) =
        some (true, 3, [.next, .aborted]) := by
    decide +kernel
  cases hb : tangled.build with
  | error e => rw [hb] at hspecs; cases hspecs
  | ok h =>
      rw [hb] at hspecs hfacts
      simp only [Except.toOption, Option.map_some, Option.some.injEq, Prod.mk.injEq,
        decide_eq_true_eq] at hfacts
      obtain ⟨hpre, hlength, hflows⟩ := hfacts
      cases hs : h.parcels.mapM (h.runtimeParcel · .lp64) with
      | error e => simp [Except.toOption, hs] at hspecs
      | ok specs =>
          have hcalls : ∀ c ∈ h.parcels.map BootCall.start, c.parcel ∈ h.parcels := by
            rw [List.forall_mem_map]
            exact fun p hp => hp
          have hdepth : 2 * h.parcels.length < 7 := by rw [hlength]; decide
          obtain ⟨records, hrun, hagree⟩ := bootProgram_agrees hb hpre hs hcalls hdepth
          exact ⟨h, specs, records, rfl, hs, hrun, hagree, hflows⟩

end ClassTables
