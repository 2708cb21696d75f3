import ClassTables.Bootstrap.Error
import ClassTables.Bootstrap.Parcel
import ClassTables.Registry.Basic
/-!
# Starting parcels

```text
notStarted ── inheritance ──► inheritanceInProgress
                                  │ inherited parcels loaded,
                                  │ own classes loaded
                                  ▼
                              inheritanceDone ── parcel ──► parcelDone
```

To come back to a parcel while its inheritance is in progress means that two parcels inherit from
each other, which is a fault.  A parcel counts as done while its prerequisites are started, so
cycles of prerequisites end and every initializer runs once.  A fault takes back the marks of the
parcels that were being started, so that the same call may be made again.

Both procedures follow the graph of parcels by recursion to a depth.  Every step down marks one
more parcel, so the number of parcels and one more is deep enough.
-/

namespace ClassTables

/-- A registered parcel with its state. -/
structure ParcelEntry (F : Type) where
  spec : ParcelSpec F
  state : ParcelState := .notStarted
deriving DecidableEq, Repr

/-- Registered parcels, the classes loaded so far, and the initializers run so far. -/
structure Runtime (F : Type) where
  parcels : List (ParcelEntry F) := []
  registry : Registry F := {}
  /-- The parcels whose initializers have run, in the order of their running. -/
  log : List String := []
deriving DecidableEq, Repr

/-- A procedure that changes the runtime, also when it fails. -/
abbrev RuntimeStep (F : Type) := Runtime F → Runtime F × Except BootstrapError Unit

namespace Runtime

variable {F : Type}

def parcel? (r : Runtime F) (name : String) : Option (ParcelEntry F) :=
  r.parcels.find? (·.spec.name == name)

def state? (r : Runtime F) (name : String) : Option ParcelState := (r.parcel? name).map (·.state)

def setState (r : Runtime F) (name : String) (s : ParcelState) : Runtime F :=
  { r with parcels := r.parcels.map fun e => if e.spec.name = name then { e with state := s } else e }

/-- Registers a parcel under a new name. -/
def registerParcel (spec : ParcelSpec F) : RuntimeStep F := fun r =>
  if (r.parcel? spec.name).isSome then (r, .error (.duplicateParcel spec.name))
  else ({ r with parcels := r.parcels ++ [{ spec }] }, .ok ())

/-- Runs a procedure for each name until one fails. -/
def forEach (step : String → RuntimeStep F) : List String → RuntimeStep F
  | [], r => (r, .ok ())
  | name :: names, r =>
    match step name r with
    | (r, .ok ()) => forEach step names r
    | (r, .error e) => (r, .error e)

/-- Runs the initializer of a parcel, if it has one. -/
def runInit (p : ParcelSpec F) (r : Runtime F) : Runtime F :=
  if p.hasInit then { r with log := r.log ++ [p.name] } else r

/-! ## Inheritance -/

/-- Loads the classes of a parcel after those of the parcels it inherits from, to a depth. -/
def inheritTo : Nat → String → RuntimeStep F
  | 0, name, r => (r, .error (.unknownParcel name))
  | depth + 1, name, r =>
    match r.parcel? name with
    | none => (r, .error (.unknownParcel name))
    | some p =>
      match p.state with
      | .inheritanceInProgress => (r, .error (.cyclicInheritance name))
      | .inheritanceDone => (r, .ok ())
      | .parcelDone => (r, .ok ())
      | .notStarted =>
        match forEach (inheritTo depth) p.spec.inherited (r.setState name .inheritanceInProgress) with
        | (r, .error e) => (r.setState name .notStarted, .error e)
        | (r, .ok ()) =>
          match r.registry.bootstrap p.spec.classes with
          | .error e => (r.setState name .notStarted, .error (.classes e))
          | .ok registry => ({ r with registry }.setState name .inheritanceDone, .ok ())

/-- Loads the classes of a parcel after those of the parcels it inherits from. -/
def bootstrapInheritance (name : String) : RuntimeStep F := fun r =>
  inheritTo (r.parcels.length + 1) name r

/-! ## Parcels -/

/-- Starts a parcel after its prerequisites, to a depth. -/
def startTo : Nat → String → RuntimeStep F
  | 0, name, r => (r, .error (.unknownParcel name))
  | depth + 1, name, r =>
    match r.parcel? name with
    | none => (r, .error (.unknownParcel name))
    | some p =>
      if p.state = .parcelDone then (r, .ok ())
      else
        match bootstrapInheritance name r with
        | (r, .error e) => (r, .error e)
        | (r, .ok ()) =>
          match forEach (startTo depth) p.spec.prereqs (r.setState name .parcelDone) with
          | (r, .error e) => (r.setState name .inheritanceDone, .error e)
          | (r, .ok ()) => (r.runInit p.spec, .ok ())

/-- Starts a parcel: its inheritance, its prerequisites, then its initializer. -/
def bootstrapParcel (name : String) : RuntimeStep F := fun r =>
  startTo (r.parcels.length + 1) name r

end Runtime

end ClassTables
