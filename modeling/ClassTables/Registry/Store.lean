import ClassTables.Registry.Basic
/-!
# The registry as it is kept

Classes stand in a vector in loading order, and an index leads from the name of a class to its place
there.  A class knows its parent by that place, and has the names of its methods in an index of its
own, which leads to their slots:

```text
index     Clownfish::Obj ↦ 0,  Animal ↦ 1
classes   0   Clownfish::Obj   slots  Destroy ↦ 0, To_String ↦ 1
          1   Animal : 0       slots  Destroy ↦ 0, To_String ↦ 1, Speak ↦ 2
```

Places and sizes of instances are sums without bound, as in the registry.

`ClassStore.bootstrap` changes both while it goes along the specifications.  When one of them does
not fit, what the call has added is taken back from the vector and from the index.
-/

namespace ClassTables

/-! ## Indexes -/

/-- Places by name.  Of several entries for a name the newest counts, which stands first. -/
structure NameIndex where
  entries : List (String × Nat) := []
deriving DecidableEq, Repr

namespace NameIndex

variable (ix : NameIndex)

def get? (name : String) : Option Nat := (ix.entries.find? (·.1 == name)).map (·.2)

/-- The name that leads to a place. -/
def nameOf? (place : Nat) : Option String := (ix.entries.find? (·.2 == place)).map (·.1)

def insert (name : String) (place : Nat) : NameIndex := ⟨(name, place) :: ix.entries⟩

def erase (name : String) : NameIndex := ⟨ix.entries.filter (·.1 != name)⟩

end NameIndex

/-! ## Tables -/

/-- A table in the making. -/
structure TableDraft (F : Type) where
  vtable : List (Slot F) := []
  slots : NameIndex := {}
  /-- Which slots of the parent have been accounted for. -/
  listed : List Bool := []
deriving DecidableEq, Repr

namespace TableDraft

variable {F : Type} (cls : String) (t : TableDraft F)

/-- The slot of a method that the parent must have. -/
def parentSlot (method : String) : Except RegisterError Nat :=
  match t.slots.get? method with
  | some i => .ok i
  | none => .error (.missingParentMethod cls method)

def inherit (method : String) : Except RegisterError (TableDraft F) := do
  let i ← t.parentSlot cls method
  return { t with listed := t.listed.set i true }

def override (m : NamedSlot F) : Except RegisterError (TableDraft F) := do
  let i ← t.parentSlot cls m.name
  return { t with vtable := t.vtable.set i m.slot, listed := t.listed.set i true }

/-- Fails at the first slot of the parent that no list accounts for. -/
def checkListed : Except RegisterError Unit :=
  match t.listed.findIdx? (!·) with
  | some i => .error (.unlistedMethod cls ((t.slots.nameOf? i).getD ""))
  | none => .ok ()

def append (m : NamedSlot F) : Except RegisterError (TableDraft F) :=
  if (t.slots.get? m.name).isSome then .error (.duplicateMethod cls m.name)
  else .ok { t with slots := t.slots.insert m.name t.vtable.length, vtable := t.vtable ++ [m.slot] }

end TableDraft

/-- Works the lists of a specification into the table of the parent. -/
def ClassSpec.draft {F : Type} (spec : ClassSpec F) (parent : TableDraft F) :
    Except RegisterError (TableDraft F) := do
  let t ← spec.inherited.foldlM (TableDraft.inherit spec.name) parent
  let t ← spec.overridden.foldlM (TableDraft.override spec.name) t
  t.checkListed spec.name
  spec.novel.foldlM (TableDraft.append spec.name) t

/-! ## Classes -/

/-- A class that has been loaded, with places for names. -/
structure StoredClass (F : Type) where
  name : String
  parcel : String
  /-- The place of the parent in the vector. -/
  parent : Option Nat
  vtable : List (Slot F)
  slots : NameIndex
  ivarsOffset : Nat
  allocSize : Nat
  align : Nat
deriving DecidableEq, Repr

namespace StoredClass

variable {F : Type} (c : StoredClass F)

/-- The place of a method in the table. -/
def slotOf? (method : String) : Option Nat := c.slots.get? method

/-- The table that a child starts from. -/
def tableDraft : TableDraft F :=
  { vtable := c.vtable, slots := c.slots, listed := List.replicate c.vtable.length false }

/-- The nearest class outside `parcel`, going up from a place.  The classes are listed newest first,
so the first one has as many behind it as its place says. -/
def foreignFrom? (parcel : String) : Option Nat → List (StoredClass F) → Option (StoredClass F)
  | none, _ => none
  | some _, [] => none
  | some i, c :: cs =>
    if i = cs.length then
      if c.parcel ≠ parcel then some c else foreignFrom? parcel c.parent cs
    else foreignFrom? parcel (some i) cs

end StoredClass

/-- The loaded classes, in loading order, and their places by name. -/
structure ClassStore (F : Type) where
  classes : List (StoredClass F) := []
  index : NameIndex := {}
deriving DecidableEq, Repr

namespace ClassStore

variable {F : Type} (s : ClassStore F)

def size : Nat := s.classes.length

def class? (name : String) : Option (StoredClass F) := (s.index.get? name).bind (s.classes[·]?)

/-- The loaded parent of a class. -/
def parentOf? (c : StoredClass F) : Option (StoredClass F) := c.parent.bind (s.classes[·]?)

/-! ## Loading -/

/-- The place of the parent that a specification names. -/
def parentPlace (spec : ClassSpec F) : Except RegisterError (Option Nat) :=
  match spec.parent with
  | none => .ok none
  | some name =>
    match s.index.get? name with
    | some i => .ok (some i)
    | none => .error (.parentNotBootstrapped spec.name name)

/-- The class that a specification describes, below the parent at a place. -/
def classOf (spec : ClassSpec F) (place : Option Nat) (table : TableDraft F) : StoredClass F :=
  let foreign := StoredClass.foreignFrom? spec.parcel place s.classes.reverse
  let offset := (foreign.map fun a => roundUp a.allocSize spec.ivarsAlign).getD 0
  let parent := place.bind (s.classes[·]?)
  let align := max ((parent.map (·.align)).getD 1) spec.ivarsAlign
  { name := spec.name
    parcel := spec.parcel
    parent := place
    vtable := table.vtable
    slots := table.slots
    ivarsOffset := offset
    allocSize := roundUp (offset + spec.ivarsSize) align
    align }

/-- The class that a specification describes, if it fits the classes loaded before. -/
def newClass (spec : ClassSpec F) : Except RegisterError (StoredClass F) := do
  if (s.index.get? spec.name).isSome then throw (.duplicateClass spec.name)
  let place ← s.parentPlace spec
  let parent := place.bind (s.classes[·]?)
  let table ← spec.draft ((parent.map (·.tableDraft)).getD {})
  return s.classOf spec place table

/-- Puts a class at the end of the vector and into the index. -/
def push (c : StoredClass F) : ClassStore F :=
  { classes := s.classes ++ [c], index := s.index.insert c.name s.classes.length }

/-- Loads one class. -/
def register (spec : ClassSpec F) : ClassStore F × Except RegisterError Unit :=
  match s.newClass spec with
  | .ok c => (s.push c, .ok ())
  | .error e => (s, .error e)

/-- Loads classes in order until one does not fit. -/
def registerAll (s : ClassStore F) : List (ClassSpec F) → ClassStore F × Except RegisterError Unit
  | [] => (s, .ok ())
  | spec :: specs =>
    match s.register spec with
    | (s', .ok ()) => s'.registerAll specs
    | (s', .error e) => (s', .error e)

/-- Takes back the classes from a place on. -/
def takeBack (start : Nat) : ClassStore F :=
  { classes := s.classes.take start
    index := (s.classes.drop start).foldl (fun ix c => ix.erase c.name) s.index }

/-- Loads classes in order, all of them or none. -/
def bootstrap (specs : List (ClassSpec F)) : ClassStore F × Except RegisterError Unit :=
  match s.registerAll specs with
  | (s', .ok ()) => (s', .ok ())
  | (s', .error e) => (s'.takeBack s.size, .error e)

/-! ## Calls -/

/-- What a call of a method on an instance of a class reaches. -/
def dispatch (cls method : String) : Except DispatchError F :=
  match s.class? cls with
  | none => .error (.unknownClass cls)
  | some c =>
    match c.slotOf? method with
    | none => .error (.unknownMethod cls method)
    | some i =>
      match c.vtable[i]? with
      | some (.implemented f) => .ok f
      | _ => .error (.abstractMethodCall cls method)

end ClassStore

end ClassTables
