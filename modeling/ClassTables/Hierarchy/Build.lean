import ClassTables.Hierarchy.Basic
import ClassTables.Hierarchy.Order
/-!
# Building a hierarchy

Declarations are checked in five passes, and the first fault found is reported:

1. no parcel name is declared twice;
2. every prerequisite is a declared parcel;
3. no class name is declared twice, every class is in a declared parcel, and inert classes declare
   neither members nor methods;
4. every parent is a declared class that is not inert;
5. the parents form no cycle.

Then every class is checked against what it inherits, parents before children: no member and no
method is declared twice, and what is declared again is not final and takes as many parameters.
-/

namespace ClassTables

/-! ## Parcels -/

/-- Fails at the first parcel whose name is among those seen before it. -/
def checkParcelNames : List String → List ParcelDecl → Except BuildError Unit
  | _, [] => .ok ()
  | seen, d :: ds =>
    if d.name ∈ seen then .error (.duplicateParcel d.name)
    else checkParcelNames (d.name :: seen) ds

/-- Fails at the first prerequisite that is not among the given parcels. -/
def checkPrereqs (known : List String) (ds : List ParcelDecl) : Except BuildError Unit :=
  ds.forM fun d => d.prereqs.forM fun q =>
    if q ∈ known then .ok () else .error (.unknownParcel q d.name)

def ParcelDecl.resolve (d : ParcelDecl) : Parcel :=
  { name := d.name, nickname := d.nickname.getD d.name, included := d.included,
    prereqs := d.prereqs }

def resolveParcels (ds : List ParcelDecl) : Except BuildError (List Parcel) := do
  checkParcelNames [] ds
  checkPrereqs (ds.map (·.name)) ds
  return ds.map ParcelDecl.resolve

/-! ## Classes -/

/-- Whether a declaration gives instances something to hold or to do. -/
def ClassDecl.hasInstanceData (d : ClassDecl) : Bool := !d.members.isEmpty || !d.methods.isEmpty

/-- Resolves the parcels of classes; `seen` holds the names of the classes before them. -/
def resolveClasses (parcels : List Parcel) :
    List String → List ClassDecl → Except BuildError (List ClassDef)
  | _, [] => .ok []
  | seen, d :: ds =>
    if d.name ∈ seen then .error (.duplicateClass d.name)
    else
      match parcels.find? (·.name == d.parcel) with
      | none => .error (.unknownParcel d.parcel d.name)
      | some p =>
        if d.inert && d.hasInstanceData then .error (.inertClassWithInstanceData d.name)
        else (resolveClasses parcels (d.name :: seen) ds).map (d.resolve p :: ·)

/-- Fails at the first class whose parent is unknown or inert. -/
def checkParents (defs : List ClassDef) : Except BuildError Unit :=
  defs.forM fun d =>
    match d.parentName with
    | none => .ok ()
    | some name =>
      match defs.find? (·.name == name) with
      | none => .error (.unknownParent d.name name)
      | some p => if p.inert then .error (.inheritsFromInert d.name name) else .ok ()

/-! ## Against what is inherited -/

/-- Fails at the first member whose name is among those seen before it. -/
def checkMembers (cls : String) : List String → List Variable → Except BuildError Unit
  | _, [] => .ok ()
  | seen, v :: vs =>
    if v.name ∈ seen then .error (.duplicateSymbol cls v.name)
    else checkMembers cls (v.name :: seen) vs

/-- Whether a method may be declared in a class that inherits `inherited`. -/
def checkOverride (cls : String) (inherited : List Method) (m : MethodDecl) :
    Except BuildError Unit :=
  match inherited.find? (·.name == m.name) with
  | none => .ok ()
  | some old =>
    if old.isFinal then .error (.overrideOfFinal cls m.name)
    else if old.params.length ≠ m.params.length + 1 then
      .error (.incompatibleOverride cls m.name)
    else .ok ()

/-- Fails at the first method that is declared twice or overrides what it may not. -/
def checkMethods (cls : String) (inherited : List Method) :
    List String → List MethodDecl → Except BuildError Unit
  | _, [] => .ok ()
  | seen, m :: ms =>
    if m.name ∈ seen then .error (.duplicateSymbol cls m.name)
    else do
      checkOverride cls inherited m
      checkMethods cls inherited (m.name :: seen) ms

/-- Checks a class against its ancestors. -/
def Class.check (c : Class) : Except BuildError Unit := do
  checkMembers c.name ((memberList c.above).map (·.name)) c.ownMembers
  checkMethods c.name (methodList c.above) [] c.ownMethods

/-! ## The whole -/

/-- The hierarchy that declarations make, or their first fault. -/
def Declarations.build (d : Declarations) : Except BuildError Hierarchy := do
  let parcels ← resolveParcels d.parcels
  let defs ← resolveClasses parcels [] d.classes
  checkParents defs
  let classes ← order defs
  classes.forM Class.check
  return { parcels, declared := defs.map (·.name), classes }

end ClassTables
