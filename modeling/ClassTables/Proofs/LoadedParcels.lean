import ClassTables.Proofs.BootRules
import ClassTables.Proofs.Tables
import Mathlib.Data.List.Perm.Basic
import Mathlib.Data.List.Flatten
/-!
# The registry holds the classes of the loaded parcels

States and classes change at different moments of a call, and a fault takes marks back but no
classes.  What keeps both together is the history: the events of a run say which parcels were
loaded, and in which order (`Ledger`).  Every call extends the ledger by its own events
(`LoadRun.ledger`, `StartRun.ledger`), whether it succeeds or fails.

Main statement: after every run no parcel waits for the parcels it inherits from, the registry
holds the classes of the parcels that are loaded, each once, and those of a parcel stand behind
those of the parcels that it inherits from (`consistent_after`).
-/

namespace ClassTables

/-! ## Names in a registry -/

section Registry

variable {F : Type} {r r' : Registry F}

/-- What a loaded class keeps of its specification as it is: its name, its parcel, its parent. -/
def LoadedClass.key (c : LoadedClass F) : String × String × Option String :=
  (c.name, c.parcel, c.parent)

def ClassSpec.key (c : ClassSpec F) : String × String × Option String :=
  (c.name, c.parcel, c.parent)

namespace Registry

/-- The names of the loaded classes, in loading order. -/
def names (r : Registry F) : List String := r.classes.map (·.name)

/-- What loading a class keeps, loading several keeps. -/
theorem bootstrap_induction {P : Registry F → Prop}
    (hstep : ∀ (r r' : Registry F) spec, P r → r.register spec = .ok r' → P r') :
    ∀ {specs : List (ClassSpec F)} {r r' : Registry F}, P r → r.bootstrap specs = .ok r' → P r'
  | [], r, r', hr, h => by
      cases h
      exact hr
  | spec :: specs, r, r', hr, h => by
      rw [bootstrap, List.foldlM_cons, bind_eq_ok_iff] at h
      obtain ⟨r₁, hfirst, hrest⟩ := h
      exact bootstrap_induction hstep (hstep r r₁ spec hr hfirst) hrest

theorem keys_of_bootstrap : ∀ {specs : List (ClassSpec F)} {r r' : Registry F},
    r.bootstrap specs = .ok r' →
      r'.classes.map (·.key) = r.classes.map (·.key) ++ specs.map (·.key)
  | [], r, r', h => by
      cases h
      rw [List.map_nil, List.append_nil]
  | c :: cs, r, r', h => by
      rw [bootstrap, List.foldlM_cons, bind_eq_ok_iff] at h
      obtain ⟨r₁, hc, hcs⟩ := h
      obtain ⟨-, parent, table, -, -, rfl⟩ := register_eq_ok_iff.mp hc
      rw [keys_of_bootstrap hcs, List.map_append, List.append_assoc]
      rfl

theorem names_of_bootstrap {specs : List (ClassSpec F)} (h : r.bootstrap specs = .ok r') :
    r'.names = r.names ++ specs.map (·.name) := by
  have hkeys := congrArg (List.map Prod.fst) (keys_of_bootstrap h)
  rwa [List.map_append, List.map_map, List.map_map, List.map_map] at hkeys

/-- No name is loaded twice. -/
theorem names_nodup_of_bootstrap {specs : List (ClassSpec F)} (hr : r.names.Nodup)
    (h : r.bootstrap specs = .ok r') : r'.names.Nodup := by
  refine bootstrap_induction (P := fun r => r.names.Nodup) ?_ hr h
  intro r r' c hr hc
  obtain ⟨hnew, parent, table, -, -, rfl⟩ := register_eq_ok_iff.mp hc
  rw [class?, find?_key_eq_none_iff] at hnew
  have hnames : names ⟨r.classes ++ [r.loadedOf c parent table]⟩ = r.names ++ [c.name] := by
    rw [names, List.map_append]
    rfl
  rw [hnames, ← List.concat_eq_append, List.nodup_concat]
  exact ⟨hnew, hr⟩

/-- The loaded classes stay in their places. -/
theorem classes_isPrefix_of_bootstrap {specs : List (ClassSpec F)}
    (h : r.bootstrap specs = .ok r') : r.classes <+: r'.classes := by
  refine bootstrap_induction (P := fun r₁ => r.classes <+: r₁.classes) ?_ (List.prefix_refl _) h
  intro r₁ r₂ c hr hc
  obtain ⟨-, parent, table, -, -, rfl⟩ := register_eq_ok_iff.mp hc
  exact hr.trans (List.prefix_append _ _)

theorem bootstrap_append {l l' : List (ClassSpec F)} {r r₁ r' : Registry F}
    (h : r.bootstrap l = .ok r₁) (h' : r₁.bootstrap l' = .ok r') :
    r.bootstrap (l ++ l') = .ok r' := by
  rw [bootstrap] at h h' ⊢
  rw [List.foldlM_append, h]
  exact h'

end Registry

end Registry

/-! ## What events say -/

namespace BootEvent

/-- The parcel whose classes are loaded. -/
def loaded? : BootEvent → Option String
  | load n _ => some n
  | init _ => none

/-- The parcel whose initializer runs. -/
def initialized? : BootEvent → Option String
  | load _ _ => none
  | init n => some n

end BootEvent

/-- The parcels that are loaded, in order. -/
def loadedBy (evs : List BootEvent) : List String := evs.filterMap BootEvent.loaded?

/-- The parcels whose initializers run, in order. -/
def initializedBy (evs : List BootEvent) : List String := evs.filterMap BootEvent.initialized?

@[simp] theorem loadedBy_append (evs evs' : List BootEvent) :
    loadedBy (evs ++ evs') = loadedBy evs ++ loadedBy evs' :=
  List.filterMap_append

@[simp] theorem initializedBy_append (evs evs' : List BootEvent) :
    initializedBy (evs ++ evs') = initializedBy evs ++ initializedBy evs' :=
  List.filterMap_append

theorem loadedBy_load (n : String) (count : Nat) : loadedBy [.load n count] = [n] := rfl

theorem initializedBy_load (n : String) (count : Nat) : initializedBy [.load n count] = [] := rfl

theorem loadedBy_initEvents {F : Type} (p : ParcelSpec F) : loadedBy p.initEvents = [] := by
  rw [ParcelSpec.initEvents]
  split <;> rfl

namespace Runtime

variable {F : Type} {r r₁ r₂ r' : Runtime F} {n k : String} {ns : List String} {s : ParcelState}
  {evs past : List BootEvent} {res : Except BootstrapError Unit}

/-! ## The ledger -/

/-- The classes of a parcel; none, if it is not registered. -/
def classesOf (r : Runtime F) (n : String) : List (ClassSpec F) :=
  ((r.spec? n).map (·.classes)).getD []

/-- The parcels that a parcel inherits from; none, if it is not registered. -/
def inheritedOf (r : Runtime F) (n : String) : List String :=
  ((r.spec? n).map (·.inherited)).getD []

/-- The events so far account for the runtime. -/
structure Ledger (past : List BootEvent) (r : Runtime F) : Prop where
  loaded : ∀ n, r.Loaded n ↔ n ∈ loadedBy past
  once : (loadedBy past).Nodup
  registry : ({} : Registry F).bootstrap ((loadedBy past).flatMap r.classesOf) = .ok r.registry
  /-- A parcel is loaded after those that it inherits from. -/
  order : NeedsFirst r.inheritedOf (loadedBy past)
  log : r.log = initializedBy past

theorem ledger_empty : Ledger [] ({} : Runtime F) where
  loaded := by
    intro n
    rw [Loaded, state?, parcel?, List.find?_nil]
    simp [loadedBy]
  once := List.nodup_nil
  registry := rfl
  order := needsFirst_nil
  log := rfl

theorem classesOf_eq_of_spec? (h : r'.spec? n = r.spec? n) : r'.classesOf n = r.classesOf n := by
  rw [classesOf, classesOf, h]

theorem inheritedOf_eq_of_spec? (h : r'.spec? n = r.spec? n) :
    r'.inheritedOf n = r.inheritedOf n := by
  rw [inheritedOf, inheritedOf, h]

/-- The ledger looks at the specifications of loaded parcels only. -/
theorem Ledger.of_view {past' : List BootEvent} (h : Ledger past r)
    (hpast : loadedBy past' = loadedBy past) (hloaded : ∀ n, r'.Loaded n ↔ r.Loaded n)
    (hspec : ∀ n, r.Loaded n → r'.spec? n = r.spec? n) (hreg : r'.registry = r.registry)
    (hlog : r'.log = initializedBy past') : Ledger past' r' where
  loaded := by
    intro n
    rw [hloaded, h.loaded, hpast]
  once := hpast ▸ h.once
  registry := by
    have hclasses : (loadedBy past).flatMap r'.classesOf = (loadedBy past).flatMap r.classesOf :=
      List.flatMap_congr fun n hn => classesOf_eq_of_spec? (hspec n ((h.loaded n).mpr hn))
    rw [hpast, hclasses, hreg, h.registry]
  order := by
    rw [hpast]
    exact h.order.congr fun n hn => inheritedOf_eq_of_spec? (hspec n ((h.loaded n).mpr hn))
  log := hlog

theorem Loaded.parcel?_isSome (h : r.Loaded n) : (r.parcel? n).isSome = true := by
  rw [Loaded, state?] at h
  cases hp : r.parcel? n with
  | some p => rfl
  | none =>
      rw [hp] at h
      rcases h with h | h <;> cases h

theorem loaded_setState_of_ne (hk : k ≠ n) : (r.setState n s).Loaded k ↔ r.Loaded k := by
  rw [Loaded, Loaded, state?_setState, if_neg hk]

theorem loaded_setState_self {t : ParcelState} (hn : r.state? n = some t) :
    (r.setState n s).Loaded n ↔ s = .inheritanceDone ∨ s = .parcelDone := by
  rw [Loaded, state?_setState, if_pos rfl, hn, Option.map_some, Option.some.injEq,
    Option.some.injEq]

/-- A mark that says the same of the classes keeps the ledger. -/
theorem Ledger.setState {t : ParcelState} (h : Ledger past r) (hn : r.state? n = some t)
    (hst : (s = .inheritanceDone ∨ s = .parcelDone) ↔ (t = .inheritanceDone ∨ t = .parcelDone)) :
    Ledger past (r.setState n s) := by
  refine h.of_view rfl ?_ (fun k _ => congrFun (spec?_setState s) k) rfl h.log
  intro k
  by_cases hk : k = n
  · subst hk
    rw [loaded_setState_self hn, hst, Loaded, hn, Option.some.injEq, Option.some.injEq]
  · exact loaded_setState_of_ne hk

theorem Ledger.markDone (h : Ledger past r) (hn : r.Loaded n) :
    Ledger past (r.setState n .parcelDone) := by
  rcases hn with hn | hn
  · exact h.setState hn (by decide)
  · exact h.setState hn (by decide)

/-- **The classes of a parcel are loaded,** after those of the parcels it inherits from. -/
theorem Ledger.load {p : ParcelSpec F} {registry : Registry F} {t : ParcelState} (count : Nat)
    (h : Ledger past r) (hn : r.state? n = some t) (hnew : ¬ r.Loaded n)
    (hp : r.spec? n = some p) (hinh : ∀ q ∈ p.inherited, r.Loaded q)
    (hreg : r.registry.bootstrap p.classes = .ok registry) :
    Ledger (past ++ [.load n count]) ({ r with registry }.setState n .inheritanceDone) where
  loaded := by
    intro k
    rw [loadedBy_append, loadedBy_load, List.mem_append, List.mem_singleton]
    have hreg : { r with registry }.Loaded k ↔ r.Loaded k := Iff.rfl
    by_cases hk : k = n
    · subst hk
      have hn' : { r with registry }.state? k = some t := hn
      simp [loaded_setState_self hn']
    · rw [loaded_setState_of_ne hk, hreg, h.loaded]
      simp [hk]
  once := by
    rw [loadedBy_append, loadedBy_load, ← List.concat_eq_append, List.nodup_concat]
    exact ⟨fun hmem => hnew ((h.loaded n).mpr hmem), h.once⟩
  registry := by
    have hclasses : ({ r with registry }.setState n .inheritanceDone).classesOf = r.classesOf := by
      funext k
      exact classesOf_eq_of_spec? (congrFun (spec?_setState _) k)
    have hown : r.classesOf n = p.classes := by
      rw [classesOf, hp]
      rfl
    rw [hclasses, loadedBy_append, List.flatMap_append, loadedBy_load, List.flatMap_singleton, hown]
    exact Registry.bootstrap_append h.registry hreg
  order := by
    have hbelow : ({ r with registry }.setState n .inheritanceDone).inheritedOf =
        r.inheritedOf := by
      funext k
      exact inheritedOf_eq_of_spec? (congrFun (spec?_setState _) k)
    have hown : r.inheritedOf n = p.inherited := by
      rw [inheritedOf, hp]
      rfl
    rw [hbelow, loadedBy_append, loadedBy_load]
    exact h.order.concat fun q hq => (h.loaded q).mp (hinh q (hown ▸ hq))
  log := by
    rw [initializedBy_append, initializedBy_load, List.append_nil]
    exact h.log

theorem Ledger.runInit (h : Ledger past r) (p : ParcelSpec F) :
    Ledger (past ++ p.initEvents) (runInit p r) := by
  apply h.of_view
  · rw [loadedBy_append, loadedBy_initEvents, List.append_nil]
  · intro k
    rw [Loaded, Loaded, state?, state?, parcel?, parcel?, parcels_runInit]
  · exact fun k _ => congrFun (spec?_runInit p) k
  · rw [Runtime.runInit]
    split <;> rfl
  · rw [initializedBy_append, Runtime.runInit, ParcelSpec.initEvents]
    split
    · rw [h.log]
      rfl
    · rw [h.log]
      exact (List.append_nil _).symm

theorem Ledger.registerParcel {p : ParcelSpec F} (h : Ledger past r) :
    Ledger past (registerParcel p r).1 := by
  cases hp : r.parcel? p.name with
  | some e => rwa [Runtime.registerParcel, hp]
  | none =>
      have hother : ∀ n, r.Loaded n → n ≠ p.name := by
        rintro n hn rfl
        have hsome := hn.parcel?_isSome
        rw [hp] at hsome
        cases hsome
      have hparcel := fun m => parcel?_registerParcel (m := m) hp
      refine h.of_view rfl ?_ ?_ ?_ (log_registerParcel.trans h.log)
      · intro n
        by_cases hn : n = p.name
        · subst hn
          rw [Loaded, Loaded, state?, state?, hparcel, if_pos rfl, hp]
          simp
        · rw [Loaded, Loaded, state?, state?, hparcel, if_neg hn]
      · intro n hn
        rw [spec?, spec?, hparcel, if_neg (hother n hn)]
      · rw [Runtime.registerParcel, hp]
        rfl

/-! ## What a call adds to the ledger -/

/-- What is known of a marked parcel when those that it inherits from have been loaded. -/
theorem LoadRun.marked {p : ParcelEntry F} (hp : r.parcel? n = some p)
    (h : LoadRun ns (r.setState n .inheritanceInProgress) evs r₁ res) :
    ¬ r₁.Loaded n ∧ r₁.spec? n = some p.spec := by
  constructor
  · rw [Loaded, h.state?_marked hp]
    decide
  · rw [spec?_of_specs h.specs, spec?_setState, spec?_of_parcel? hp]

theorem Ledger.mark {p : ParcelEntry F} (h : Ledger past r) (hp : r.parcel? n = some p)
    (hs : p.state = .notStarted) : Ledger past (r.setState n .inheritanceInProgress) := by
  have hn : r.state? n = some .notStarted := hs ▸ state?_of_parcel? hp
  exact h.setState hn (by decide)

theorem LoadRun.ledger (h : LoadRun ns r evs r' res) (hl : Ledger past r) :
    Ledger (past ++ evs) r' := by
  induction h generalizing past with
  | nil => rwa [List.append_nil]
  | unknown _ => rwa [List.append_nil]
  | cyclic _ _ => rwa [List.append_nil]
  | known _ _ _ ih => exact ih hl
  | failed hp hs hsub ih => exact (ih (hl.mark hp hs)).setState (hsub.state?_marked hp) (by decide)
  | refused hp hs hsub _ ih =>
      exact (ih (hl.mark hp hs)).setState (hsub.state?_marked hp) (by decide)
  | @loaded _ _ _ _ _ p _ _ _ _ hp hs hsub hreg _ ih ih' =>
      obtain ⟨hnew, hspec⟩ := hsub.marked hp
      have hone := (ih (hl.mark hp hs)).load p.spec.classes.length (hsub.state?_marked hp) hnew
        hspec (hsub.loaded_of_ok rfl) hreg
      have hrest := ih' hone
      rwa [List.append_assoc, List.append_assoc] at hrest

theorem StartRun.ledger (h : StartRun ns r evs r' res) (hl : Ledger past r) :
    Ledger (past ++ evs) r' := by
  induction h generalizing past with
  | nil => rwa [List.append_nil]
  | unknown _ => rwa [List.append_nil]
  | known _ _ _ ih => exact ih hl
  | notLoaded _ _ hload => exact hload.ledger hl
  | @failed n _ _ _ r₂ _ _ _ _ hp _ hload hsub ih =>
      have hdone := (hload.done_mark_iff hp n).mpr (Or.inr rfl)
      have hn : r₂.state? n = some .parcelDone := hsub.done n hdone
      have hmarked := (hload.ledger hl).markDone (hload.loaded_of_ok rfl n List.mem_cons_self)
      rw [← List.append_assoc]
      exact (ih hmarked).setState hn (by decide)
  | @started n _ _ _ _ _ _ _ _ _ _ _ _ hload _ _ ih ih' =>
      have hmarked := (hload.ledger hl).markDone (hload.loaded_of_ok rfl n List.mem_cons_self)
      simp only [← List.append_assoc]
      exact ih' ((ih hmarked).runInit _)

/-! ## Parcels between calls -/

/-- No parcel waits for the parcels that it inherits from. -/
def Settled (r : Runtime F) : Prop := ∀ n, r.state? n ≠ some .inheritanceInProgress

theorem Settled.setState (h : Settled r) (hs : s ≠ .inheritanceInProgress) :
    Settled (r.setState n s) := by
  intro k hk
  rw [state?_setState] at hk
  split at hk
  · rw [Option.map_eq_some_iff] at hk
    obtain ⟨-, -, hk⟩ := hk
    exact hs hk
  · exact h k hk

theorem LoadRun.settled (h : LoadRun ns r evs r' res) (hr : Settled r) : Settled r' := by
  intro k hk
  rcases h.settles k with heq | ⟨-, heq⟩
  · exact hr k (heq ▸ hk)
  · rw [heq] at hk
    cases hk

theorem StartRun.settled (h : StartRun ns r evs r' res) (hr : Settled r) : Settled r' := by
  induction h with
  | nil => exact hr
  | unknown _ => exact hr
  | known _ _ _ ih => exact ih hr
  | notLoaded _ _ hload => exact hload.settled hr
  | failed _ _ hload _ ih =>
      have hsub := ih ((hload.settled hr).setState (by decide))
      exact hsub.setState (by decide)
  | @started _ _ _ _ r₂ _ p _ _ _ _ _ _ hload _ _ ih ih' =>
      have hsub := ih ((hload.settled hr).setState (by decide))
      apply ih'
      intro k hk
      rw [state?, parcel?, parcels_runInit] at hk
      exact hsub k hk

/-- The parcels are registered under distinct names. -/
def DistinctNames (r : Runtime F) : Prop := (r.specs.map (·.name)).Nodup

theorem DistinctNames.registerParcel {p : ParcelSpec F} (h : DistinctNames r) :
    DistinctNames (registerParcel p r).1 := by
  rw [Runtime.registerParcel]
  split
  · exact h
  · next hp =>
      rw [parcel?_isSome_iff] at hp
      have hspecs : ({ r with parcels := r.parcels ++ [{ spec := p }] } : Runtime F).specs =
          r.specs ++ [p] := List.map_append
      rw [DistinctNames, hspecs, List.map_append, List.map_singleton, ← List.concat_eq_append]
      exact h.concat hp

/-- What holds before and after every call. -/
structure Orderly (past : List BootEvent) (r : Runtime F) : Prop where
  settled : Settled r
  distinct : DistinctNames r
  ledger : Ledger past r

theorem orderly_empty : Orderly [] ({} : Runtime F) where
  settled := by
    intro n h
    cases h
  distinct := List.nodup_nil
  ledger := ledger_empty

theorem Orderly.registerParcel (h : Orderly past r) (p : ParcelSpec F) :
    Orderly past (registerParcel p r).1 where
  settled := by
    intro k hk
    rw [state?] at hk
    cases hp : r.parcel? p.name with
    | some e =>
        rw [Runtime.registerParcel, hp] at hk
        exact h.settled k hk
    | none =>
        rw [parcel?_registerParcel hp] at hk
        split at hk
        · cases hk
        · exact h.settled k hk
  distinct := h.distinct.registerParcel
  ledger := h.ledger.registerParcel

/-- **One call,** whether it succeeds or fails. -/
theorem Orderly.run (h : Orderly past r) (c : Call F) :
    ∃ evs, Orderly (past ++ evs) (c.run r).1 := by
  cases c with
  | register p =>
      refine ⟨[], ?_⟩
      rw [List.append_nil]
      exact h.registerParcel p
  | inherit n =>
      obtain ⟨evs, hrun⟩ := exists_loadRun n r
      refine ⟨evs, hrun.settled h.settled, ?_, hrun.ledger h.ledger⟩
      rw [Call.run, DistinctNames, hrun.specs]
      exact h.distinct
  | start n =>
      obtain ⟨evs, hrun⟩ := exists_startRun n r
      refine ⟨evs, hrun.settled h.settled, ?_, hrun.ledger h.ledger⟩
      rw [Call.run, DistinctNames, hrun.specs]
      exact h.distinct

theorem orderly_after (calls : List (Call F)) : ∃ past, Orderly past (after calls) := by
  induction calls using List.reverseRecOn with
  | nil => exact ⟨[], orderly_empty⟩
  | append_singleton calls c ih =>
      obtain ⟨past, h⟩ := ih
      obtain ⟨evs, h'⟩ := h.run c
      rw [after_append_singleton]
      exact ⟨past ++ evs, h'⟩

/-! ## States and registry -/

end Runtime

/-- The classes of the parcel are loaded. -/
def ParcelEntry.IsLoaded {F : Type} (e : ParcelEntry F) : Prop :=
  e.state = .inheritanceDone ∨ e.state = .parcelDone

instance {F : Type} (e : ParcelEntry F) : Decidable e.IsLoaded :=
  inferInstanceAs (Decidable (_ ∨ _))

namespace Runtime

variable {F : Type} {r : Runtime F} {past : List BootEvent}

/-- The parcels whose classes are loaded, in the order of their registration. -/
def loadedEntries (r : Runtime F) : List (ParcelEntry F) := r.parcels.filter (·.IsLoaded)

/-- States and registry agree. -/
structure Consistent (r : Runtime F) : Prop where
  settled : ∀ e ∈ r.parcels, e.state ≠ .inheritanceInProgress
  /-- The registry holds the classes of the loaded parcels and no others. -/
  holds : (r.registry.classes.map (·.key)).Perm
    ((r.loadedEntries.flatMap (·.spec.classes)).map (·.key))
  once : r.registry.names.Nodup
  /-- It is what loading those parcels, one after the other, gives. -/
  bootstrapped : ∃ ns : List String, ns.Perm (r.loadedEntries.map (·.spec.name)) ∧
    ({} : Registry F).bootstrap (ns.flatMap r.classesOf) = .ok r.registry
  /-- What a loaded parcel inherits from is loaded, with its classes at earlier places. -/
  inherited : ∀ e ∈ r.loadedEntries, ∀ n ∈ e.spec.inherited,
    ∃ e' ∈ r.loadedEntries, e'.spec.name = n ∧ ∀ c ∈ e'.spec.classes, ∀ c' ∈ e.spec.classes,
      r.registry.names.idxOf c.name < r.registry.names.idxOf c'.name

theorem DistinctNames.parcel?_eq_some_iff (h : DistinctNames r) {n : String} {e : ParcelEntry F} :
    r.parcel? n = some e ↔ e ∈ r.parcels ∧ e.spec.name = n := by
  rw [DistinctNames, specs, List.map_map] at h
  exact find?_key_eq_some_iff h

theorem DistinctNames.loaded_iff (h : DistinctNames r) {e : ParcelEntry F} (he : e ∈ r.parcels) :
    r.Loaded e.spec.name ↔ e.IsLoaded := by
  have hp : r.parcel? e.spec.name = some e := h.parcel?_eq_some_iff.mpr ⟨he, rfl⟩
  exact loaded_iff_of_parcel? hp

theorem mem_loadedEntries {e : ParcelEntry F} :
    e ∈ r.loadedEntries ↔ e ∈ r.parcels ∧ e.IsLoaded := by
  rw [loadedEntries, List.mem_filter, decide_eq_true_eq]

/-- The ledger lists the loaded parcels. -/
theorem Orderly.mem_loadedBy_iff (h : Orderly past r) {n : String} :
    n ∈ loadedBy past ↔ ∃ e ∈ r.loadedEntries, e.spec.name = n := by
  rw [← h.ledger.loaded]
  constructor
  · intro hn
    obtain ⟨e, he⟩ := Option.isSome_iff_exists.mp hn.parcel?_isSome
    obtain ⟨hmem, rfl⟩ := h.distinct.parcel?_eq_some_iff.mp he
    exact ⟨e, mem_loadedEntries.mpr ⟨hmem, (h.distinct.loaded_iff hmem).mp hn⟩, rfl⟩
  · rintro ⟨e, he, rfl⟩
    obtain ⟨hmem, hload⟩ := mem_loadedEntries.mp he
    exact (h.distinct.loaded_iff hmem).mpr hload

theorem Orderly.loadedBy_perm (h : Orderly past r) :
    (loadedBy past).Perm (r.loadedEntries.map (·.spec.name)) := by
  rw [List.perm_ext_iff_of_nodup h.ledger.once]
  · intro n
    rw [h.mem_loadedBy_iff, List.mem_map]
  · have hnd := h.distinct
    rw [DistinctNames, specs, List.map_map] at hnd
    exact hnd.sublist (List.filter_sublist.map _)

theorem Orderly.classesOf_name (h : Orderly past r) {e : ParcelEntry F} (he : e ∈ r.parcels) :
    r.classesOf e.spec.name = e.spec.classes := by
  rw [classesOf, spec?_of_parcel? (h.distinct.parcel?_eq_some_iff.mpr ⟨he, rfl⟩)]
  rfl

theorem Orderly.inheritedOf_name (h : Orderly past r) {e : ParcelEntry F} (he : e ∈ r.parcels) :
    r.inheritedOf e.spec.name = e.spec.inherited := by
  rw [inheritedOf, spec?_of_parcel? (h.distinct.parcel?_eq_some_iff.mpr ⟨he, rfl⟩)]
  rfl

/-- The names in the registry, parcel by parcel as they were loaded. -/
theorem Ledger.names (h : Ledger past r) :
    r.registry.names = (loadedBy past).flatMap fun n => (r.classesOf n).map (·.name) := by
  have hnames := Registry.names_of_bootstrap h.registry
  rwa [List.map_flatMap] at hnames

theorem Ledger.names_nodup (h : Ledger past r) : r.registry.names.Nodup := by
  have hempty : ({} : Registry F).names.Nodup := List.nodup_nil
  exact Registry.names_nodup_of_bootstrap hempty h.registry

theorem Orderly.holds (h : Orderly past r) : (r.registry.classes.map (·.key)).Perm
    ((r.loadedEntries.flatMap (·.spec.classes)).map (·.key)) := by
  have hclasses : (r.loadedEntries.map (·.spec.name)).flatMap r.classesOf =
      r.loadedEntries.flatMap (·.spec.classes) := by
    rw [List.flatMap_map]
    exact List.flatMap_congr fun e he => h.classesOf_name (mem_loadedEntries.mp he).1
  rw [Registry.keys_of_bootstrap h.ledger.registry, ← hclasses]
  exact (h.loadedBy_perm.flatMap_right _).map _

/-- The classes of a parcel stand behind those of what it inherits from. -/
theorem Ledger.idxOf_lt (h : Ledger past r) {n q : String} (hn : n ∈ loadedBy past)
    (hq : q ∈ r.inheritedOf n) {c c' : ClassSpec F} (hc : c ∈ r.classesOf q)
    (hc' : c' ∈ r.classesOf n) :
    r.registry.names.idxOf c.name < r.registry.names.idxOf c'.name := by
  obtain ⟨pre, post, hpast⟩ := List.append_of_mem hn
  have hnd := h.names_nodup
  rw [h.names, hpast, List.flatMap_append, List.nodup_append'] at hnd
  obtain ⟨-, -, hdis⟩ := hnd
  have hmem : c.name ∈ pre.flatMap fun n => (r.classesOf n).map (·.name) :=
    List.mem_flatMap.mpr ⟨q, h.order pre n post hpast q hq, List.mem_map_of_mem hc⟩
  have hnot : c'.name ∉ pre.flatMap fun n => (r.classesOf n).map (·.name) := by
    intro hmem'
    refine hdis hmem' (List.mem_flatMap.mpr ⟨n, List.mem_cons_self, List.mem_map_of_mem hc'⟩)
  rw [h.names, hpast, List.flatMap_append, List.idxOf_append_of_mem hmem,
    List.idxOf_append_of_notMem hnot]
  exact Nat.lt_add_right _ (List.idxOf_lt_length_of_mem hmem)

theorem Orderly.consistent (h : Orderly past r) : Consistent r where
  settled := by
    intro e he hs
    have hp : r.parcel? e.spec.name = some e := h.distinct.parcel?_eq_some_iff.mpr ⟨he, rfl⟩
    exact h.settled e.spec.name (hs ▸ state?_of_parcel? hp)
  holds := h.holds
  once := h.ledger.names_nodup
  bootstrapped := ⟨loadedBy past, h.loadedBy_perm, h.ledger.registry⟩
  inherited := by
    intro e he n hn
    have hmem := (mem_loadedEntries.mp he).1
    have hown : e.spec.name ∈ loadedBy past := h.mem_loadedBy_iff.mpr ⟨e, he, rfl⟩
    rw [← h.inheritedOf_name hmem] at hn
    obtain ⟨pre, post, hpast⟩ := List.append_of_mem hown
    have hbefore : n ∈ loadedBy past := by
      rw [hpast]
      exact List.mem_append_left _ (h.ledger.order pre _ post hpast n hn)
    obtain ⟨e', he', rfl⟩ := h.mem_loadedBy_iff.mp hbefore
    refine ⟨e', he', rfl, fun c hc c' hc' => ?_⟩
    rw [← h.classesOf_name (mem_loadedEntries.mp he').1] at hc
    rw [← h.classesOf_name hmem] at hc'
    exact h.ledger.idxOf_lt hown hn hc hc'

/-- **States and registry agree after every run.** -/
theorem consistent_after (calls : List (Call F)) : Consistent (after calls) := by
  obtain ⟨past, h⟩ := orderly_after calls
  exact h.consistent

end Runtime

end ClassTables
