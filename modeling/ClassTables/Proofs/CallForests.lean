import ClassTables.Proofs.BootRules
/-!
# Every call ends

The parcels that a walk follows may lead in circles, and a walk turns back only where its state
check tells it to.  Here the calls of a walk are written down as they are made, each with the calls
that are made within it (`inheritCalls`, `startCalls`).

A call passes the check of a parcel only if the parcel has not come so far, and leaves a mark.  A
mark is taken away only on a fault, and a fault ends the whole walk.  So along any walk, what passes
is paid for by what had not been passed before (`Accounts`), and every level costs a parcel.

Main statement: `calls_end`.  No depth is too small that exceeds the number of parcels, calls of one
kind nest no deeper than that, and within one call every check is passed at most once.  What passes
in a call that succeeds is what the call has brought up (`Thorough`).
-/

namespace ClassTables

/-! ## Calls within calls -/

/-- What a walk does at a parcel. -/
inductive CallStep where
  /-- A call to load the classes of a parcel, which passes the state check or turns back there. -/
  | inherit (parcel : String) (passes : Bool)
  /-- A call to start a parcel, which passes the state check or turns back there. -/
  | start (parcel : String) (passes : Bool)
  /-- The classes of a parcel are handed to the registry. -/
  | register (parcel : String)
  /-- The prerequisites of a parcel are gone through. -/
  | prereqs (parcel : String)
  /-- A call that is not made, because the walk has come as deep as it may. -/
  | cutOff (parcel : String)
deriving DecidableEq, Repr

def CallStep.isInherit : CallStep → Bool
  | inherit _ _ => true
  | _ => false

def CallStep.isStart : CallStep → Bool
  | start _ _ => true
  | _ => false

/-- Steps in order, each with those that are taken within it. -/
inductive CallForest where
  | nil
  | node (step : CallStep) (within rest : CallForest)
deriving DecidableEq, Repr

namespace CallForest

/-- A step with nothing within it. -/
def leaf (s : CallStep) : CallForest := .node s .nil .nil

def append : CallForest → CallForest → CallForest
  | nil, g => g
  | node s f rest, g => node s f (rest.append g)

/-- How often a step is taken, at whatever depth. -/
def count (s : CallStep) : CallForest → Nat
  | nil => 0
  | node t f rest => (if t = s then 1 else 0) + f.count s + rest.count s

/-- How deep steps of a kind stand within each other. -/
def nesting (kind : CallStep → Bool) : CallForest → Nat
  | nil => 0
  | node s f rest => max ((if kind s then 1 else 0) + f.nesting kind) (rest.nesting kind)

variable {f g : CallForest}

@[simp] theorem count_leaf (s t : CallStep) : (leaf t).count s = if t = s then 1 else 0 := by
  rw [leaf, count, count, Nat.add_zero]

@[simp] theorem nesting_leaf (kind : CallStep → Bool) (s : CallStep) :
    (leaf s).nesting kind = if kind s then 1 else 0 := by
  rw [leaf, nesting, nesting, Nat.add_zero, Nat.max_zero]

@[simp] theorem append_nil (f : CallForest) : f.append .nil = f := by
  induction f with
  | nil => rfl
  | node s f rest _ ih => rw [append, ih]

@[simp] theorem count_append (s : CallStep) (f g : CallForest) :
    (f.append g).count s = f.count s + g.count s := by
  induction f with
  | nil => rw [append, count, Nat.zero_add]
  | node t f rest _ ih =>
      rw [append, count, count, ih]
      omega

@[simp] theorem nesting_append (kind : CallStep → Bool) (f g : CallForest) :
    (f.append g).nesting kind = max (f.nesting kind) (g.nesting kind) := by
  induction f with
  | nil => rw [append, nesting, Nat.zero_max]
  | node t f rest _ ih => rw [append, nesting, nesting, ih, Nat.max_assoc]

/-- What does not nest at all does not occur. -/
theorem count_eq_zero_of_nesting {kind : CallStep → Bool} {s : CallStep} (hs : kind s = true) :
    ∀ {f : CallForest}, f.nesting kind = 0 → f.count s = 0
  | nil, _ => rfl
  | node t f rest, h => by
      rw [nesting, Nat.max_eq_zero_iff, Nat.add_eq_zero_iff] at h
      obtain ⟨⟨ht, hf⟩, hrest⟩ := h
      have hne : t ≠ s := by
        rintro rfl
        simp [hs] at ht
      rw [count, if_neg hne, count_eq_zero_of_nesting hs hf, count_eq_zero_of_nesting hs hrest]

end CallForest

namespace Runtime

variable {F : Type}

/-! ## The calls of a walk -/

/-- The calls that are made while a procedure is carried out for each name until one fails. -/
def forEachCalls (step : String → RuntimeStep F) (calls : String → Runtime F → CallForest) :
    List String → Runtime F → CallForest
  | [], _ => .nil
  | name :: names, r =>
    (calls name r).append <|
      match step name r with
      | (r, .ok ()) => forEachCalls step calls names r
      | (_, .error _) => .nil

/-- The calls that are made to load the classes of a parcel, to a depth. -/
def inheritCalls : Nat → String → Runtime F → CallForest
  | 0, name, _ => .leaf (.cutOff name)
  | depth + 1, name, r =>
    match r.parcel? name with
    | none => .leaf (.inherit name false)
    | some p =>
      match p.state with
      | .notStarted =>
        let marked := r.setState name .inheritanceInProgress
        let below := forEachCalls (inheritTo depth) (inheritCalls depth) p.spec.inherited marked
        .node (.inherit name true)
          (below.append <|
            match forEach (inheritTo depth) p.spec.inherited marked with
            | (_, .ok ()) => .leaf (.register name)
            | (_, .error _) => .nil)
          .nil
      | _ => .leaf (.inherit name false)

/-- The calls that are made to start a parcel, to a depth. -/
def startCalls : Nat → String → Runtime F → CallForest
  | 0, name, _ => .leaf (.cutOff name)
  | depth + 1, name, r =>
    match r.parcel? name with
    | none => .leaf (.start name false)
    | some p =>
      if p.state = .parcelDone then .leaf (.start name false)
      else
        .node (.start name true)
          ((inheritCalls (r.parcels.length + 1) name r).append <|
            match bootstrapInheritance name r with
            | (r, .ok ()) =>
              .node (.prereqs name)
                (forEachCalls (startTo depth) (startCalls depth) p.spec.prereqs
                  (r.setState name .parcelDone))
                .nil
            | (_, .error _) => .nil)
          .nil

variable {r r₁ r₂ r' : Runtime F} {n k : String} {ns : List String} {p : ParcelEntry F} {d : Nat}
  {evs : List BootEvent} {res : Except BootstrapError Unit} {e : BootstrapError}
  {s : ParcelState} {step : String → RuntimeStep F} {calls : String → Runtime F → CallForest}

theorem forEachCalls_ok (h : step n r = (r₁, .ok ())) :
    forEachCalls step calls (n :: ns) r = (calls n r).append (forEachCalls step calls ns r₁) := by
  rw [forEachCalls, h]

theorem forEachCalls_error (h : step n r = (r₁, .error e)) :
    forEachCalls step calls (n :: ns) r = calls n r := by
  rw [forEachCalls, h]
  exact CallForest.append_nil _

theorem forEachCalls_singleton : forEachCalls step calls [n] r = calls n r := by
  rw [forEachCalls]
  rcases step n r with ⟨r₁, e | _⟩
  · exact CallForest.append_nil _
  · exact CallForest.append_nil _

theorem inheritCalls_of_started (hp : r.parcel? n = some p) (hs : p.state ≠ .notStarted) :
    inheritCalls (d + 1) n r = .leaf (.inherit n false) := by
  rw [inheritCalls, hp]
  dsimp only
  split
  · next h => exact absurd h hs
  · rfl

theorem inheritCalls_unknown (hp : r.parcel? n = none) :
    inheritCalls (d + 1) n r = .leaf (.inherit n false) := by
  rw [inheritCalls, hp]

theorem inheritCalls_ok (hp : r.parcel? n = some p) (hs : p.state = .notStarted)
    (h : forEach (inheritTo d) p.spec.inherited (r.setState n .inheritanceInProgress) =
      (r₁, .ok ())) :
    inheritCalls (d + 1) n r = .node (.inherit n true)
      ((forEachCalls (inheritTo d) (inheritCalls d) p.spec.inherited
        (r.setState n .inheritanceInProgress)).append (.leaf (.register n))) .nil := by
  rw [inheritCalls, hp]
  simp only [hs, h]

theorem inheritCalls_error (hp : r.parcel? n = some p) (hs : p.state = .notStarted)
    (h : forEach (inheritTo d) p.spec.inherited (r.setState n .inheritanceInProgress) =
      (r₁, .error e)) :
    inheritCalls (d + 1) n r = .node (.inherit n true)
      ((forEachCalls (inheritTo d) (inheritCalls d) p.spec.inherited
        (r.setState n .inheritanceInProgress)).append .nil) .nil := by
  rw [inheritCalls, hp]
  simp only [hs, h]

theorem startCalls_unknown (hp : r.parcel? n = none) :
    startCalls (d + 1) n r = .leaf (.start n false) := by
  rw [startCalls, hp]

theorem startCalls_done (hp : r.parcel? n = some p) (hs : p.state = .parcelDone) :
    startCalls (d + 1) n r = .leaf (.start n false) := by
  rw [startCalls, hp]
  exact if_pos hs

theorem startCalls_ok (hp : r.parcel? n = some p) (hs : p.state ≠ .parcelDone)
    (h : bootstrapInheritance n r = (r₁, .ok ())) :
    startCalls (d + 1) n r = .node (.start n true)
      ((inheritCalls (r.parcels.length + 1) n r).append <| .node (.prereqs n)
        (forEachCalls (startTo d) (startCalls d) p.spec.prereqs (r₁.setState n .parcelDone)) .nil)
      .nil := by
  rw [startCalls, hp]
  dsimp only
  rw [if_neg hs, h]

theorem startCalls_error (hp : r.parcel? n = some p) (hs : p.state ≠ .parcelDone)
    (h : bootstrapInheritance n r = (r₁, .error e)) :
    startCalls (d + 1) n r = .node (.start n true)
      ((inheritCalls (r.parcels.length + 1) n r).append .nil) .nil := by
  rw [startCalls, hp]
  dsimp only
  rw [if_neg hs, h]

/-! ## What passes is paid for -/

/-- One, if the classes of the parcel may still be loaded. -/
def idle (r : Runtime F) (k : String) : Nat := if r.state? k = some .notStarted then 1 else 0

/-- One, if the parcel may still be started. -/
def undone (r : Runtime F) (k : String) : Nat := if r.state? k = some .parcelDone then 0 else 1

/-- Out of `before`, a walk spends `count`; where it succeeds, `after` remains. -/
def Spends (count before after : Nat) : Except BootstrapError Unit → Prop
  | .ok () => count + after = before
  | .error _ => count ≤ before

theorem Spends.le {x y z : Nat} (h : Spends x y z res) : x ≤ y := by
  rcases res with e | _
  · exact h
  · exact Nat.le_of_add_right_le (Nat.le_of_eq h)

theorem spends_zero (x : Nat) (res : Except BootstrapError Unit) : Spends 0 x x res := by
  rcases res with e | _
  · exact Nat.zero_le x
  · exact Nat.zero_add x

theorem spends_self (x : Nat) (res : Except BootstrapError Unit) : Spends x x 0 res := by
  rcases res with e | _
  · exact Nat.le_refl x
  · exact Nat.add_zero x

/-- What succeeds leaves the rest for what comes after it. -/
theorem Spends.trans {x x' y z z' : Nat} (h : Spends x y z (.ok ())) (h' : Spends x' z z' res) :
    Spends (x + x') y z' res := by
  rcases res with e | _ <;> simp only [Spends] at *
  · omega
  · omega

/-- After a fault nothing need remain. -/
theorem Spends.follow {x y z z' : Nat} {res' : Except BootstrapError Unit} (h : Spends x y z res)
    (hok : res' = .ok () → res = .ok () ∧ z' = z) : Spends x y z' res' := by
  rcases res' with e | _
  · exact h.le
  · obtain ⟨rfl, rfl⟩ := hok rfl
    exact h

/-- What a mark has taken away is spent as well. -/
theorem Spends.mark {m x y y' z : Nat} (h : Spends x y z res) (hm : y + m = y') :
    Spends (m + x) y' z res := by
  rcases res with e | _ <;> simp only [Spends] at *
  · omega
  · omega

theorem Spends.add {x x' y y' : Nat} (h : Spends x y 0 res) (h' : Spends x' y' 0 res) :
    Spends (x + x') (y + y') 0 res := by
  rcases res with e | _ <;> simp only [Spends] at *
  · omega
  · omega

theorem idle_le (r : Runtime F) (k : String) : r.idle k ≤ 1 := by
  rw [idle]
  split <;> decide

theorem undone_le (r : Runtime F) (k : String) : r.undone k ≤ 1 := by
  rw [undone]
  split <;> decide

/-- The mark that a parcel gets while its inheritance is in progress uses up what it had left. -/
theorem idle_mark (hn : r.state? n = some .notStarted) (k : String) :
    (r.setState n .inheritanceInProgress).idle k + (if n = k then 1 else 0) = r.idle k := by
  rw [idle, idle, state?_setState]
  by_cases hk : k = n
  · subst hk
    simp [hn]
  · rw [if_neg hk, if_neg (Ne.symm hk), Nat.add_zero]

/-- The mark that a parcel gets while its prerequisites are started uses up what it had left. -/
theorem LoadRun.undone_mark (h : LoadRun [n] r evs r₁ res) (hp : r.parcel? n = some p)
    (hs : p.state ≠ .parcelDone) (k : String) :
    (r₁.setState n .parcelDone).undone k + (if n = k then 1 else 0) = r.undone k := by
  have hmark := h.done_mark_iff hp k
  rw [Done, Done] at hmark
  simp only [undone, hmark]
  by_cases hk : n = k
  · subst hk
    simp [state?_of_parcel? hp, hs]
  · simp [hk, Ne.symm hk]

/-- A parcel that has been started has nothing left for loading, in whatever state. -/
theorem idle_setState (hn : r.state? n ≠ some .notStarted) (hs : s ≠ .notStarted) (k : String) :
    (r.setState n s).idle k = r.idle k := by
  rw [idle, idle, state?_setState]
  by_cases hk : k = n
  · subst hk
    cases hk : r.state? k with
    | none => simp
    | some t => simp_all
  · rw [if_neg hk]

/-- A parcel that is not done may still be started, in whatever other state. -/
theorem undone_setState (hn : ¬ r.Done n) (hs : s ≠ .parcelDone) (k : String) :
    (r.setState n s).undone k = r.undone k := by
  have hdone := done_setState_of_ne (r := r) (n := n) (m := k) hs
  rw [Done, Done] at hdone
  simp only [undone, hdone]
  by_cases hk : k = n
  · subst hk
    rw [Done] at hn
    simp [hn]
  · simp [hk]

@[simp] theorem idle_runInit (q : ParcelSpec F) (k : String) : (runInit q r).idle k = r.idle k := by
  rw [idle, idle, state?, state?, parcel?, parcel?, parcels_runInit]

@[simp] theorem undone_runInit (q : ParcelSpec F) (k : String) :
    (runInit q r).undone k = r.undone k := by
  rw [undone, undone, state?, state?, parcel?, parcel?, parcels_runInit]

theorem length_parcels_of_specs (h : r'.specs = r.specs) :
    r'.parcels.length = r.parcels.length := by
  have hlen := congrArg List.length h
  rwa [Runtime.specs, Runtime.specs, List.length_map, List.length_map] at hlen

/-- Every check that is passed in the calls uses up what the parcel had left, and entails one
attempt to register or one walk through the prerequisites, unless a fault comes first. -/
structure Accounts (f : CallForest) (r r' : Runtime F) (res : Except BootstrapError Unit) :
    Prop where
  uncut : ∀ k, f.count (.cutOff k) = 0
  inherit : ∀ k, Spends (f.count (.inherit k true)) (r.idle k) (r'.idle k) res
  start : ∀ k, Spends (f.count (.start k true)) (r.undone k) (r'.undone k) res
  register : ∀ k, Spends (f.count (.register k)) (f.count (.inherit k true)) 0 res
  prereqs : ∀ k, Spends (f.count (.prereqs k)) (f.count (.start k true)) 0 res

variable {f g : CallForest} {res' : Except BootstrapError Unit}

namespace Accounts

/-- Where nothing is passed, nothing is spent. -/
theorem of_count_eq_zero
    (hf : ∀ t, t ≠ .inherit n false → t ≠ .start n false → f.count t = 0) :
    Accounts f r r res where
  uncut k := hf _ (by simp) (by simp)
  inherit k := by
    rw [hf (.inherit k true) (by simp) (by simp)]
    exact spends_zero _ res
  start k := by
    rw [hf (.start k true) (by simp) (by simp)]
    exact spends_zero _ res
  register k := by
    rw [hf (.register k) (by simp) (by simp), hf (.inherit k true) (by simp) (by simp)]
    exact spends_zero 0 res
  prereqs k := by
    rw [hf (.prereqs k) (by simp) (by simp), hf (.start k true) (by simp) (by simp)]
    exact spends_zero 0 res

theorem nil : Accounts .nil r r res := of_count_eq_zero (n := "") fun _ _ _ => rfl

/-- Calls that turn back cost nothing. -/
theorem turnsBack {s : CallStep} (hs : s = .inherit n false ∨ s = .start n false) :
    Accounts (.leaf s) r r res := by
  apply of_count_eq_zero (n := n)
  intro t ht ht'
  have hne : s ≠ t := by
    rintro rfl
    exact hs.elim ht ht'
  rw [CallForest.count_leaf, if_neg hne]

theorem append (h : Accounts f r r₁ (.ok ())) (h' : Accounts g r₁ r' res) :
    Accounts (f.append g) r r' res where
  uncut k := by rw [CallForest.count_append, h.uncut, h'.uncut]
  inherit k := by
    rw [CallForest.count_append]
    exact (h.inherit k).trans (h'.inherit k)
  start k := by
    rw [CallForest.count_append]
    exact (h.start k).trans (h'.start k)
  register k := by
    rw [CallForest.count_append, CallForest.count_append]
    exact ((h.register k).follow fun _ => ⟨rfl, rfl⟩).add (h'.register k)
  prereqs k := by
    rw [CallForest.count_append, CallForest.count_append]
    exact ((h.prereqs k).follow fun _ => ⟨rfl, rfl⟩).add (h'.prereqs k)

end Accounts

/-- The calls of a walk that loads classes: they start nothing, and every level costs a parcel that
was not started. -/
structure LoadCalls (f : CallForest) (r r' : Runtime F) (res : Except BootstrapError Unit) : Prop
    extends Accounts f r r' res where
  deep : f.nesting CallStep.isInherit ≤ r.waiting + 1
  noStart : f.nesting CallStep.isStart = 0

theorem LoadCalls.count_start (h : LoadCalls f r r' res) (k : String) :
    f.count (.start k true) = 0 :=
  CallForest.count_eq_zero_of_nesting rfl h.noStart

theorem LoadCalls.nil : LoadCalls .nil r r res where
  toAccounts := .nil
  deep := Nat.zero_le _
  noStart := rfl

theorem LoadCalls.turnsBack : LoadCalls (.leaf (.inherit n false)) r r res where
  toAccounts := .turnsBack (Or.inl rfl)
  deep := by
    rw [CallForest.nesting_leaf]
    exact Nat.le_add_left 1 _
  noStart := by
    rw [CallForest.nesting_leaf]
    rfl

theorem LoadCalls.append (h : LoadCalls f r r₁ (.ok ())) (h' : LoadCalls g r₁ r' res)
    (hle : r₁.waiting ≤ r.waiting) : LoadCalls (f.append g) r r' res where
  toAccounts := h.toAccounts.append h'.toAccounts
  deep := by
    rw [CallForest.nesting_append]
    exact Nat.max_le.mpr ⟨h.deep, Nat.le_trans h'.deep (Nat.succ_le_succ hle)⟩
  noStart := by rw [CallForest.nesting_append, h.noStart, h'.noStart, Nat.max_zero]

/-- The mark that a parcel gets pays for its passing the check, whatever becomes of it after the
parcels that it inherits from. -/
theorem LoadCalls.node (hp : r.parcel? n = some p) (hs : p.state = .notStarted)
    (h : LoadCalls f (r.setState n .inheritanceInProgress) r₁ res)
    (hg : g = .nil ∨ g = .leaf (.register n))
    (hok : res' = .ok () → res = .ok () ∧ g = .leaf (.register n) ∧
      (∀ k, r'.idle k = r₁.idle k) ∧ ∀ k, r'.undone k = r₁.undone k) :
    LoadCalls (.node (.inherit n true) (f.append g) .nil) r r' res' := by
  have hn : r.state? n = some .notStarted := hs ▸ state?_of_parcel? hp
  have hundone := undone_setState (r := r) (n := n) (s := .inheritanceInProgress)
    (by simp [Done, hn]) (by decide)
  -- of the calls counted here, `g` has only the registration
  have hone : ∀ k, Spends (g.count (.register k)) (if n = k then 1 else 0) 0 res' := by
    intro k
    rcases res' with e | _
    · rcases hg with rfl | rfl <;> simp [Spends, CallForest.count]
    · obtain ⟨-, rfl, -⟩ := hok rfl
      simp [Spends]
  have hzero : ∀ t, (∀ k, t ≠ .register k) → g.count t = 0 := by
    intro t ht
    rcases hg with rfl | rfl
    · rfl
    · rw [CallForest.count_leaf, if_neg (ht n).symm]
  have hflat : ∀ kind : CallStep → Bool, kind (.register n) = false → g.nesting kind = 0 := by
    intro kind hkind
    rcases hg with rfl | rfl
    · rfl
    · simp [hkind]
  have hinherit : ∀ k, (CallForest.node (.inherit n true) (f.append g) .nil).count
      (.inherit k true) = (if n = k then 1 else 0) + f.count (.inherit k true) := by
    simp [CallForest.count, hzero]
  have hother : ∀ t, (∀ k, t ≠ .inherit k true) →
      (CallForest.node (.inherit n true) (f.append g) .nil).count t = f.count t + g.count t := by
    intro t ht
    simp [CallForest.count, (ht n).symm]
  refine ⟨⟨fun k => ?uncut, fun k => ?inherit, fun k => ?start, fun k => ?register,
    fun k => ?prereqs⟩, ?deep, ?noStart⟩
  case uncut => rw [hother _ (by simp), h.uncut, hzero _ (by simp)]
  case inherit =>
    rw [hinherit]
    exact ((h.inherit k).mark (idle_mark hn k)).follow fun hres =>
      ⟨(hok hres).1, (hok hres).2.2.1 k⟩
  case start =>
    rw [hother _ (by simp), hzero _ (by simp), ← hundone k]
    exact (h.start k).follow fun hres => ⟨(hok hres).1, (hok hres).2.2.2 k⟩
  case register =>
    rw [hother _ (by simp), hinherit, Nat.add_comm (if n = k then 1 else 0)]
    exact ((h.register k).follow fun hres => ⟨(hok hres).1, rfl⟩).add (hone k)
  case prereqs =>
    rw [hother _ (by simp), hother _ (by simp), hzero _ (by simp), hzero _ (by simp)]
    exact (h.prereqs k).follow fun hres => ⟨(hok hres).1, rfl⟩
  case deep =>
    have hdeep := h.deep
    have hlt := waiting_mark_lt hp hs
    simp [CallForest.nesting, hflat CallStep.isInherit rfl, CallStep.isInherit]
    omega
  case noStart =>
    simp [CallForest.nesting, hflat CallStep.isStart rfl, CallStep.isStart, h.noStart]

/-- **Loading accounts for its calls,** at any depth beyond the number of parcels waiting. -/
theorem LoadRun.accounts (h : LoadRun ns r evs r' res) : ∀ d, r.waiting < d →
    LoadCalls (forEachCalls (inheritTo d) (inheritCalls d) ns r) r r' res := by
  induction h with
  | nil => exact fun d _ => .nil
  | unknown hp =>
      intro d hd
      obtain ⟨d, rfl⟩ := Nat.exists_eq_add_of_lt hd
      rw [forEachCalls_error (inheritTo_unknown hp), inheritCalls_unknown hp]
      exact .turnsBack
  | cyclic hp hs =>
      intro d hd
      obtain ⟨d, rfl⟩ := Nat.exists_eq_add_of_lt hd
      rw [forEachCalls_error (inheritTo_cyclic hp hs), inheritCalls_of_started hp (by simp [hs])]
      exact .turnsBack
  | @known n ns r r' p evs res hp hs _ ih =>
      intro d hd
      have hrest := ih d hd
      have hstarted : p.state ≠ .notStarted := by rcases hs with hs | hs <;> simp [hs]
      obtain ⟨d, rfl⟩ := Nat.exists_eq_add_of_lt hd
      rw [forEachCalls_ok (inheritTo_known hp hs), inheritCalls_of_started hp hstarted]
      exact LoadCalls.turnsBack.append hrest (Nat.le_refl _)
  | @failed n _ r _ _ _ _ hp hs hsub ih =>
      intro d hd
      have hlt := waiting_mark_lt hp hs
      have hone := (LoadRun.failed hp hs hsub : LoadRun [n] r _ _ _).inheritTo_eq hd
      obtain ⟨d, rfl⟩ := Nat.exists_eq_add_of_lt hd
      have hbelow := hsub.eq_of_lt (_ + d) (Nat.lt_add_right d hlt)
      rw [forEachCalls_error hone, inheritCalls_error hp hs hbelow]
      exact (ih _ (Nat.lt_add_right d hlt)).node hp hs (Or.inl rfl) (by simp)
  | @refused n _ r _ _ _ _ hp hs hsub hreg ih =>
      intro d hd
      have hlt := waiting_mark_lt hp hs
      have hone := (LoadRun.refused hp hs hsub hreg : LoadRun [n] r _ _ _).inheritTo_eq hd
      obtain ⟨d, rfl⟩ := Nat.exists_eq_add_of_lt hd
      have hbelow := hsub.eq_of_lt (_ + d) (Nat.lt_add_right d hlt)
      rw [forEachCalls_error hone, inheritCalls_ok hp hs hbelow]
      exact (ih _ (Nat.lt_add_right d hlt)).node hp hs (Or.inr rfl) (by simp)
  | @loaded n ns r r₁ r' p evs evs' registry res hp hs hsub hreg _ ih ih' =>
      intro d hd
      have hlt := waiting_mark_lt hp hs
      have hrun := LoadRun.loaded hp hs hsub hreg .nil
      have hle := hrun.settles.waiting_le hrun.specs
      have hone := hrun.inheritTo_eq hd
      have hrest := ih' d (Nat.lt_of_le_of_lt hle hd)
      obtain ⟨d, rfl⟩ := Nat.exists_eq_add_of_lt hd
      have hbelow := hsub.eq_of_lt (_ + d) (Nat.lt_add_right d hlt)
      rw [forEachCalls_ok hone, inheritCalls_ok hp hs hbelow]
      refine LoadCalls.append ?_ hrest hle
      -- the mark is changed for another one: the parcel has nothing left, the others what they had
      have hbefore : r₁.state? n = some .inheritanceInProgress := hsub.state?_marked hp
      have hmark : ({ r₁ with registry } : Runtime F).state? n = some .inheritanceInProgress :=
        hbefore
      have hstarted : ({ r₁ with registry } : Runtime F).state? n ≠ some .notStarted := by
        rw [hmark]
        decide
      have hdone : ¬ ({ r₁ with registry } : Runtime F).Done n := by
        rw [Done, hmark]
        decide
      exact (ih _ (Nat.lt_add_right d hlt)).node hp hs (Or.inr rfl) fun _ =>
        ⟨rfl, rfl, idle_setState hstarted (by decide), undone_setState hdone (by decide)⟩

/-- The calls of a walk that starts parcels: every level of it costs a parcel that was not done. -/
structure StartCalls (f : CallForest) (r r' : Runtime F) (res : Except BootstrapError Unit) : Prop
    extends Accounts f r r' res where
  deep : f.nesting CallStep.isStart ≤ r.unfinished + 1
  deepLoad : f.nesting CallStep.isInherit ≤ r.parcels.length + 1

theorem StartCalls.nil : StartCalls .nil r r res where
  toAccounts := .nil
  deep := Nat.zero_le _
  deepLoad := Nat.zero_le _

theorem StartCalls.turnsBack : StartCalls (.leaf (.start n false)) r r res where
  toAccounts := .turnsBack (Or.inr rfl)
  deep := by
    rw [CallForest.nesting_leaf]
    exact Nat.le_add_left 1 _
  deepLoad := by
    rw [CallForest.nesting_leaf]
    exact Nat.zero_le _

theorem StartCalls.append (h : StartCalls f r r₁ (.ok ())) (h' : StartCalls g r₁ r' res)
    (hspecs : r₁.specs = r.specs) (hle : r₁.unfinished ≤ r.unfinished) :
    StartCalls (f.append g) r r' res where
  toAccounts := h.toAccounts.append h'.toAccounts
  deep := by
    rw [CallForest.nesting_append]
    exact Nat.max_le.mpr ⟨h.deep, Nat.le_trans h'.deep (Nat.succ_le_succ hle)⟩
  deepLoad := by
    have hg := h'.deepLoad
    rw [length_parcels_of_specs hspecs] at hg
    rw [CallForest.nesting_append]
    exact Nat.max_le.mpr ⟨h.deepLoad, hg⟩

/-- A parcel whose classes cannot be loaded has passed one check, which it had not passed before. -/
theorem StartCalls.notLoaded (hp : r.parcel? n = some p) (hs : p.state ≠ .parcelDone)
    (h : LoadCalls f r r₁ (.error e)) :
    StartCalls (.node (.start n true) (f.append .nil) .nil) r r₁ (.error e) := by
  have hstart : ∀ k, (if n = k then 1 else 0) ≤ r.undone k := by
    intro k
    split
    · next hk =>
        subst hk
        simp [undone, state?_of_parcel? hp, hs]
    · exact Nat.zero_le _
  have hother : ∀ t, (∀ k, t ≠ .start k true) →
      (CallForest.node (.start n true) (f.append .nil) .nil).count t = f.count t := by
    intro t ht
    simp [CallForest.count, (ht n).symm]
  have hstarts : ∀ k, (CallForest.node (.start n true) (f.append .nil) .nil).count
      (.start k true) = if n = k then 1 else 0 := by
    simp [CallForest.count, h.count_start]
  refine ⟨⟨fun k => ?uncut, fun k => ?inherit, fun k => ?start, fun k => ?register,
    fun k => ?prereqs⟩, ?deep, ?deepLoad⟩
  case uncut => rw [hother _ (by simp), h.uncut]
  case inherit =>
    rw [hother _ (by simp)]
    exact h.inherit k
  case start =>
    rw [hstarts]
    exact hstart k
  case register =>
    rw [hother _ (by simp), hother _ (by simp)]
    exact h.register k
  case prereqs =>
    have hf := (h.prereqs k).le
    rw [h.count_start, Nat.le_zero] at hf
    rw [hother _ (by simp), hf]
    exact Nat.zero_le _
  case deep => simp [CallForest.nesting, CallStep.isStart, h.noStart]
  case deepLoad =>
    have hf := h.deep
    have hle := r.waiting_le
    simp [CallForest.nesting, CallStep.isInherit]
    omega

/-- The mark that a parcel gets pays for its passing the check, whatever becomes of it after its
prerequisites. -/
theorem StartCalls.node (hp : r.parcel? n = some p) (hs : p.state ≠ .parcelDone)
    (hload : LoadRun [n] r evs r₁ (.ok ())) (h : LoadCalls f r r₁ (.ok ()))
    (h' : StartCalls g (r₁.setState n .parcelDone) r₂ res)
    (hok : res' = .ok () → res = .ok () ∧ (∀ k, r'.idle k = r₂.idle k) ∧
      ∀ k, r'.undone k = r₂.undone k) :
    StartCalls (.node (.start n true) (f.append (.node (.prereqs n) g .nil)) .nil) r r' res' := by
  have hspecs : (r₁.setState n .parcelDone).specs = r.specs := (specs_setState _).trans hload.specs
  have hidle : ∀ k, (r₁.setState n .parcelDone).idle k = r₁.idle k := by
    apply idle_setState ?_ (by decide)
    rcases hload.loaded_of_ok rfl n List.mem_cons_self with hn | hn <;> simp [hn]
  have hstart : ∀ k, (CallForest.node (.start n true) (f.append (.node (.prereqs n) g .nil))
      .nil).count (.start k true) = (if n = k then 1 else 0) + g.count (.start k true) := by
    simp [CallForest.count, h.count_start]
  have hprereqs : ∀ k, (CallForest.node (.start n true) (f.append (.node (.prereqs n) g .nil))
      .nil).count (.prereqs k) = (if n = k then 1 else 0) + g.count (.prereqs k) := by
    intro k
    have hf := (h.prereqs k).le
    rw [h.count_start, Nat.le_zero] at hf
    simp [CallForest.count, hf]
  have hother : ∀ t, (∀ k, t ≠ .start k true) → (∀ k, t ≠ .prereqs k) →
      (CallForest.node (.start n true) (f.append (.node (.prereqs n) g .nil)) .nil).count t =
        f.count t + g.count t := by
    intro t ht ht'
    simp [CallForest.count, (ht n).symm, (ht' n).symm]
  refine ⟨⟨fun k => ?uncut, fun k => ?inherit, fun k => ?start, fun k => ?register,
    fun k => ?prereqs⟩, ?deep, ?deepLoad⟩
  case uncut => rw [hother _ (by simp) (by simp), h.uncut, h'.uncut]
  case inherit =>
    have hg := h'.inherit k
    rw [hidle] at hg
    rw [hother _ (by simp) (by simp)]
    exact (h.inherit k).trans (hg.follow fun hres => ⟨(hok hres).1, (hok hres).2.1 k⟩)
  case start =>
    rw [hstart]
    exact ((h'.start k).mark (hload.undone_mark hp hs k)).follow fun hres =>
      ⟨(hok hres).1, (hok hres).2.2 k⟩
  case register =>
    rw [hother _ (by simp) (by simp), hother _ (by simp) (by simp)]
    exact ((h.register k).follow fun _ => ⟨rfl, rfl⟩).add
      ((h'.register k).follow fun hres => ⟨(hok hres).1, rfl⟩)
  case prereqs =>
    rw [hprereqs, hstart]
    exact (spends_self _ _).add ((h'.prereqs k).follow fun hres => ⟨(hok hres).1, rfl⟩)
  case deep =>
    have hg := h'.deep
    have hlt := unfinished_mark_lt hp hs hload
    simp [CallForest.nesting, CallStep.isStart, h.noStart]
    omega
  case deepLoad =>
    have hf := h.deep
    have hle := r.waiting_le
    have hg := h'.deepLoad
    rw [length_parcels_of_specs hspecs] at hg
    simp [CallForest.nesting, CallStep.isInherit]
    omega

theorem LoadRun.accounts_one (h : LoadRun [n] r evs r' res) :
    LoadCalls (inheritCalls (r.parcels.length + 1) n r) r r' res := by
  have hcalls := h.accounts (r.parcels.length + 1) (Nat.lt_succ_of_le r.waiting_le)
  rwa [forEachCalls_singleton] at hcalls

/-- **Starting accounts for its calls,** at any depth beyond the number of parcels not done. -/
theorem StartRun.accounts (h : StartRun ns r evs r' res) : ∀ d, r.unfinished < d →
    StartCalls (forEachCalls (startTo d) (startCalls d) ns r) r r' res := by
  induction h with
  | nil => exact fun d _ => .nil
  | unknown hp =>
      intro d hd
      obtain ⟨d, rfl⟩ := Nat.exists_eq_add_of_lt hd
      rw [forEachCalls_error (startTo_unknown hp), startCalls_unknown hp]
      exact .turnsBack
  | known hp hs _ ih =>
      intro d hd
      have hrest := ih d hd
      obtain ⟨d, rfl⟩ := Nat.exists_eq_add_of_lt hd
      rw [forEachCalls_ok (startTo_done hp hs), startCalls_done hp hs]
      exact StartCalls.turnsBack.append hrest rfl (Nat.le_refl _)
  | @notLoaded n _ r _ _ _ _ hp hs hload =>
      intro d hd
      have hone := (StartRun.notLoaded hp hs hload : StartRun [n] r _ _ _).startTo_eq hd
      obtain ⟨d, rfl⟩ := Nat.exists_eq_add_of_lt hd
      rw [forEachCalls_error hone, startCalls_error hp hs hload.eq_bootstrap]
      exact .notLoaded hp hs hload.accounts_one
  | @failed n _ r _ _ _ _ _ _ hp hs hload hsub ih =>
      intro d hd
      have hlt := unfinished_mark_lt hp hs hload
      have hone := (StartRun.failed hp hs hload hsub : StartRun [n] r _ _ _).startTo_eq hd
      obtain ⟨d, rfl⟩ := Nat.exists_eq_add_of_lt hd
      rw [forEachCalls_error hone, startCalls_ok hp hs hload.eq_bootstrap]
      exact .node hp hs hload hload.accounts_one (ih _ (Nat.lt_add_right d hlt)) (by simp)
  | started hp hs hload hsub _ ih ih' =>
      intro d hd
      have hlt := unfinished_mark_lt hp hs hload
      have hrun := StartRun.started hp hs hload hsub .nil
      have hle := unfinished_le_of_done hrun.specs hrun.done
      have hone := hrun.startTo_eq hd
      have hrest := ih' d (Nat.lt_of_le_of_lt hle hd)
      obtain ⟨d, rfl⟩ := Nat.exists_eq_add_of_lt hd
      rw [forEachCalls_ok hone, startCalls_ok hp hs hload.eq_bootstrap]
      refine StartCalls.append ?_ hrest hrun.specs hle
      exact .node hp hs hload hload.accounts_one (ih _ (Nat.lt_add_right d hlt)) fun _ =>
        ⟨rfl, idle_runInit _, undone_runInit _⟩

/-! ## Every call -/

/-- Carries out a call, to a depth. -/
def Call.runTo (depth : Nat) : Call F → RuntimeStep F
  | .register spec => registerParcel spec
  | .inherit name => inheritTo depth name
  | .start name => startTo depth name

/-- The calls that are made to carry out a call, to a depth. -/
def Call.callsTo (depth : Nat) : Call F → Runtime F → CallForest
  | .register _, _ => .nil
  | .inherit name, r => inheritCalls depth name r
  | .start name, r => startCalls depth name r

/-- What a walk among `bound` parcels may do at most. -/
structure WithinBounds (bound : Nat) (f : CallForest) : Prop where
  uncut : ∀ k, f.count (.cutOff k) = 0
  inheritDeep : f.nesting CallStep.isInherit ≤ bound + 1
  startDeep : f.nesting CallStep.isStart ≤ bound + 1
  inheritOnce : ∀ k, f.count (.inherit k true) ≤ 1
  startOnce : ∀ k, f.count (.start k true) ≤ 1
  registerOnce : ∀ k, f.count (.register k) ≤ 1
  prereqsOnce : ∀ k, f.count (.prereqs k) ≤ 1

/-- What a walk without a fault has done: once for each parcel that it has loaded, and once for each
that it has started. -/
structure Thorough (f : CallForest) (r r' : Runtime F) : Prop where
  inherit : ∀ k, f.count (.inherit k true) =
    if r.state? k = some .notStarted ∧ r'.state? k ≠ some .notStarted then 1 else 0
  start : ∀ k, f.count (.start k true) =
    if r.state? k ≠ some .parcelDone ∧ r'.state? k = some .parcelDone then 1 else 0
  register : ∀ k, f.count (.register k) = f.count (.inherit k true)
  prereqs : ∀ k, f.count (.prereqs k) = f.count (.start k true)

theorem Accounts.withinBounds {bound : Nat} (h : Accounts f r r' res)
    (hinherit : f.nesting CallStep.isInherit ≤ bound + 1)
    (hstart : f.nesting CallStep.isStart ≤ bound + 1) : WithinBounds bound f := by
  have hi : ∀ k, f.count (.inherit k true) ≤ 1 := fun k =>
    Nat.le_trans (h.inherit k).le (r.idle_le k)
  have hs : ∀ k, f.count (.start k true) ≤ 1 := fun k =>
    Nat.le_trans (h.start k).le (r.undone_le k)
  exact ⟨h.uncut, hinherit, hstart, hi, hs, fun k => Nat.le_trans (h.register k).le (hi k),
    fun k => Nat.le_trans (h.prereqs k).le (hs k)⟩

theorem Accounts.thorough (h : Accounts f r r' res) (hok : res = .ok ()) : Thorough f r r' := by
  subst hok
  refine ⟨fun k => ?inherit, fun k => ?start, h.register, h.prereqs⟩
  case inherit =>
    have hspent : f.count (.inherit k true) + r'.idle k = r.idle k := h.inherit k
    rw [idle, idle] at hspent
    by_cases hold : r.state? k = some .notStarted <;>
      by_cases hnew : r'.state? k = some .notStarted <;> simp_all
  case start =>
    have hspent : f.count (.start k true) + r'.undone k = r.undone k := h.start k
    rw [undone, undone] at hspent
    by_cases hold : r.state? k = some .parcelDone <;>
      by_cases hnew : r'.state? k = some .parcelDone <;> simp_all

/-- To register a parcel brings none up. -/
theorem thorough_registerParcel (spec : ParcelSpec F) :
    Thorough .nil r (registerParcel spec r).1 where
  inherit k := by
    refine (if_neg ?_).symm
    rintro ⟨hold, hnew⟩
    cases hp : r.parcel? spec.name with
    | some e =>
        rw [registerParcel, hp] at hnew
        exact hnew hold
    | none =>
        have hk : k ≠ spec.name := by
          rintro rfl
          rw [state?, hp] at hold
          cases hold
        rw [state?, parcel?_registerParcel hp, if_neg hk] at hnew
        exact hnew hold
  start k := by
    refine (if_neg ?_).symm
    rintro ⟨hold, hnew⟩
    exact hold (done_registerParcel.mp hnew)
  register _ := rfl
  prereqs _ := rfl

/-- **Every call ends,** whatever is registered and whatever came before: any depth beyond the
number of parcels gives the answer of the call and cuts nothing off.  Calls to load and calls to
start nest one deeper than that number at most, and each parcel passes the check of each once at
most, so that its classes are handed over and its prerequisites gone through once at most.  When the
call succeeds, the parcels that pass are those that it has brought up. -/
theorem calls_end (r : Runtime F) (c : Call F) (depth : Nat) (hdepth : r.parcels.length < depth) :
    c.runTo depth r = c.run r ∧ WithinBounds r.parcels.length (c.callsTo depth r) ∧
      ((c.run r).2 = .ok () → Thorough (c.callsTo depth r) r (c.run r).1) := by
  cases c with
  | register spec =>
      have hnone : Accounts .nil r r (.ok ()) := .nil
      refine ⟨rfl, hnone.withinBounds (Nat.zero_le _) (Nat.zero_le _), fun _ => ?_⟩
      exact thorough_registerParcel spec
  | inherit n =>
      obtain ⟨evs, hrun⟩ := exists_loadRun n r
      have hlt := Nat.lt_of_le_of_lt r.waiting_le hdepth
      have hcalls := hrun.accounts depth hlt
      rw [forEachCalls_singleton] at hcalls
      refine ⟨hrun.inheritTo_eq hlt, hcalls.withinBounds ?_ ?_, fun hok => ?_⟩
      · exact Nat.le_trans hcalls.deep (Nat.succ_le_succ r.waiting_le)
      · exact Nat.le_trans (Nat.le_of_eq hcalls.noStart) (Nat.zero_le _)
      · exact hcalls.toAccounts.thorough hok
  | start n =>
      obtain ⟨evs, hrun⟩ := exists_startRun n r
      have hlt := Nat.lt_of_le_of_lt r.unfinished_le hdepth
      have hcalls := hrun.accounts depth hlt
      rw [forEachCalls_singleton] at hcalls
      refine ⟨hrun.startTo_eq hlt, hcalls.withinBounds hcalls.deepLoad ?_, fun hok => ?_⟩
      · exact Nat.le_trans hcalls.deep (Nat.succ_le_succ r.unfinished_le)
      · exact hcalls.toAccounts.thorough hok

/-- `P` and `Q` need each other and themselves, more than once, and both inherit from `R`. -/
def entangled : List (Call String) :=
  [.register { name := "P", inherited := ["R", "R"], prereqs := ["P", "Q", "Q"] },
   .register { name := "Q", inherited := ["R"], prereqs := ["Q", "P", "X"] },
   .register { name := "R" }]

/-- To start `P` fails in the end, as `X` is missing; both parcels are passed on the way. -/
theorem entangled_ends :
    (after entangled).parcels.length = 3 ∧
      WithinBounds 3 ((Call.start "P").callsTo 4 (after entangled)) ∧
        ((Call.start "P").runTo 4 (after entangled)).2 = .error (.unknownParcel "X") ∧
          ((Call.start "P").callsTo 4 (after entangled)).nesting CallStep.isStart = 3 ∧
            ((Call.start "P").callsTo 4 (after entangled)).count (.prereqs "Q") = 1 := by
  have hlength : (after entangled).parcels.length = 3 := by decide +kernel
  obtain ⟨-, hbounds, -⟩ := calls_end (after entangled) (.start "P") 4 (hlength ▸ by decide)
  rw [hlength] at hbounds
  exact ⟨hlength, hbounds, by decide +kernel, by decide +kernel, by decide +kernel⟩

end Runtime

end ClassTables
