import ClassTables.Registry.Error
import ClassTables.Registry.Spec
import ClassTables.Target
/-!
# The registry of loaded classes

A class is loaded after its parent.  Its table is that of the parent, with overrides put in their
slots and novel methods appended, so a slot means the same method in every descendant.  Its block
of members starts after the nearest ancestor from another parcel.

`Registry.bootstrap` loads several classes and gives a registry only if all of them fit.

Places and sizes in an instance are sums without bound.  A machine keeps them in words as long as an
address, and comes to the same numbers as long as these fit.
-/

namespace ClassTables

/-- A class that has been loaded. -/
structure LoadedClass (F : Type) where
  name : String
  parcel : String
  parent : Option String
  /-- The slots in order, each with the name of its method. -/
  table : List (NamedSlot F)
  /-- Where the block of the class's parcel starts, a sum without bound. -/
  ivarsOffset : Nat
  /-- The size of an instance, a multiple of `align` and a sum without bound. -/
  allocSize : Nat
  /-- The strictest alignment on the lineage. -/
  align : Nat
deriving DecidableEq, Repr

namespace LoadedClass

variable {F : Type} (c : LoadedClass F)

def vtable : List (Slot F) := c.table.map (·.slot)

/-- The place of a method in the table. -/
def slotOf? (method : String) : Option Nat := c.table.findIdx? (·.name == method)

end LoadedClass

/-- The loaded classes, in loading order. -/
structure Registry (F : Type) where
  classes : List (LoadedClass F) := []
deriving DecidableEq, Repr

/-! ## Tables -/

section Tables

variable {F : Type}

/-- Whether a table has a method. -/
def hasMethod (table : List (NamedSlot F)) (name : String) : Bool := table.any (·.name == name)

/-- Fails at the first name that the parent's table does not have. -/
def checkListed (cls : String) (table : List (NamedSlot F)) (names : List String) :
    Except RegisterError Unit :=
  names.forM fun n =>
    if hasMethod table n then .ok () else .error (.missingParentMethod cls n)

/-- Puts an override in the slot of its method. -/
def override (table : List (NamedSlot F)) (m : NamedSlot F) : List (NamedSlot F) :=
  table.map fun old => if old.name = m.name then m else old

/-- Appends novel methods, whose names must be new. -/
def appendNovel (cls : String) (table : List (NamedSlot F)) :
    List (NamedSlot F) → Except RegisterError (List (NamedSlot F))
  | [] => .ok table
  | m :: ms =>
    if hasMethod table m.name then .error (.duplicateMethod cls m.name)
    else appendNovel cls (table ++ [m]) ms

/-- The table of a class whose parent has the given table. -/
def ClassSpec.table (spec : ClassSpec F) (parent : List (NamedSlot F)) :
    Except RegisterError (List (NamedSlot F)) := do
  let overridden := spec.overridden.map (·.name)
  checkListed spec.name parent spec.inherited
  checkListed spec.name parent overridden
  match parent.find? (fun m => !(spec.inherited.contains m.name || overridden.contains m.name)) with
  | some m => .error (.unlistedMethod spec.name m.name)
  | none => appendNovel spec.name (spec.overridden.foldl override parent) spec.novel

end Tables

/-! ## Places -/

/-- The nearest class outside `parcel`, going up from the class of the given name.  The classes are
listed newest first, so a parent stands behind its children. -/
def foreignAncestor? {F : Type} (parcel : String) :
    Option String → List (LoadedClass F) → Option (LoadedClass F)
  | none, _ => none
  | some _, [] => none
  | some name, c :: cs =>
    if c.name = name then
      if c.parcel ≠ parcel then some c else foreignAncestor? parcel c.parent cs
    else foreignAncestor? parcel (some name) cs

namespace Registry

variable {F : Type} (r : Registry F)

def size : Nat := r.classes.length

def class? (name : String) : Option (LoadedClass F) := r.classes.find? (·.name == name)

/-- The parent that a specification names. -/
def parentOf (spec : ClassSpec F) : Except RegisterError (Option (LoadedClass F)) :=
  match spec.parent with
  | none => .ok none
  | some name =>
    match r.class? name with
    | some p => .ok (some p)
    | none => .error (.parentNotBootstrapped spec.name name)

/-- Loads one class. -/
def register (spec : ClassSpec F) : Except RegisterError (Registry F) := do
  if (r.class? spec.name).isSome then throw (.duplicateClass spec.name)
  let parent ← r.parentOf spec
  let table ← spec.table ((parent.map (·.table)).getD [])
  let foreign := foreignAncestor? spec.parcel spec.parent r.classes.reverse
  let offset := (foreign.map fun a => roundUp a.allocSize spec.ivarsAlign).getD 0
  let align := max ((parent.map (·.align)).getD 1) spec.ivarsAlign
  return { classes := r.classes ++
    [{ name := spec.name
       parcel := spec.parcel
       parent := spec.parent
       table
       ivarsOffset := offset
       allocSize := roundUp (offset + spec.ivarsSize) align
       align }] }

/-- Loads classes in order, all of them or none. -/
def bootstrap (specs : List (ClassSpec F)) : Except RegisterError (Registry F) :=
  specs.foldlM register r

/-- What a call of a method on an instance of a class reaches. -/
def dispatch (cls method : String) : Except DispatchError F :=
  match r.class? cls with
  | none => .error (.unknownClass cls)
  | some c =>
    match c.table.find? (·.name == method) with
    | none => .error (.unknownMethod cls method)
    | some ⟨_, .implemented f⟩ => .ok f
    | some ⟨_, .abstract⟩ => .error (.abstractMethodCall cls method)

end Registry

end ClassTables
