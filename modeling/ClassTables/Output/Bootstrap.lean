import ClassTables.Fragment.Basic
import ClassTables.Hierarchy.Basic
/-!
# Bootstrap functions

The source of a parcel holds two functions that bring the parcel up, and a number that says how far
it has come:

```text
0 ──bootstrap_inheritance──► 1 ──inherited parcels, classes──► 2 ──bootstrap_parcel──► 3
```

A parcel in state 1 is waiting for the parcels it inherits from, so to find one there means that two
parcels inherit from each other.  `bootstrap_parcel` sets state 3 before it visits prerequisites, so
cycles of prerequisites end.

Both functions are straight lines of *steps*; calls name a parcel by its prefix.
-/

namespace ClassTables

/-- A step of a bootstrap function. -/
inductive BootStep where
  /-- Ends the program if the parcel waits for the parcels that it inherits from. -/
  | abortOnCycle
  /-- Returns if the state is this one or a later one. -/
  | returnFrom (state : Nat)
  | setState (state : Nat)
  /-- Loads the classes of another parcel, after those that it inherits from. -/
  | callInheritance (parcel : String)
  /-- Loads the parcel's own classes, given how many. -/
  | loadClasses (count : Nat)
  /-- Brings up another parcel as a whole. -/
  | callParcel (parcel : String)
  /-- Runs the initializer of the parcel. -/
  | callInit (parcel : String)
deriving DecidableEq, Repr

namespace BootStep

/-- The table of class rows, or nothing when it would be empty. -/
def classTable (count : Nat) : String := if count = 0 then "NULL" else "class_specs"

def toStmt : BootStep → Stmt
  | abortOnCycle =>
    .cond "bootstrap_state == 1"
      [.line "fprintf(stderr, \"Cycle in class inheritance between parcels detected.\\n\");",
       .line "abort();"]
  | returnFrom n => .cond ("bootstrap_state >= " ++ toString n) [.ret none]
  | setState n => .line ("bootstrap_state = " ++ toString n ++ ";")
  | callInheritance p => .line (p ++ "bootstrap_inheritance();")
  | loadClasses n =>
    .line ("cfish_Class_bootstrap(" ++ classTable n ++ ", " ++ toString n ++ ");")
  | callParcel p => .line (p ++ "bootstrap_parcel();")
  | callInit p => .line (p ++ "init_parcel();")

end BootStep

/-! ## The two functions of a parcel -/

namespace Parcel

variable (p : Parcel)

def bootInheritanceName : String := p.lowerPrefix ++ "bootstrap_inheritance"

def bootParcelName : String := p.lowerPrefix ++ "bootstrap_parcel"

def initName : String := p.lowerPrefix ++ "init_parcel"

end Parcel

namespace Hierarchy

variable (h : Hierarchy) (p : Parcel)

/-- The classes of a parcel that have instances. -/
def dynamicClassesOf : List Class := (h.classesOf p).filter (!·.inert)

/-- Loads the classes of the parcel after those of the parcels it inherits from. -/
def inheritanceSteps : List BootStep :=
  [.abortOnCycle, .returnFrom 2, .setState 1] ++
    (h.inheritedParcels p).map (fun q => .callInheritance q.lowerPrefix) ++
    [.loadClasses (h.dynamicClassesOf p).length, .setState 2]

/-- Brings up the parcel: its classes, its prerequisites, its initializer. -/
def parcelSteps : List BootStep :=
  [.returnFrom 3, .callInheritance p.lowerPrefix, .setState 3] ++
    (h.prereqsOf p).map (fun q => .callParcel q.lowerPrefix) ++ [.callInit p.lowerPrefix]

def bootInheritance : Item :=
  .fnDef { returns := "void", name := p.bootInheritanceName, params := "void" }
    ((h.inheritanceSteps p).map BootStep.toStmt)

def bootParcel : Item :=
  .fnDef { returns := "void", name := p.bootParcelName, params := "void" }
    ((h.parcelSteps p).map BootStep.toStmt)

end Hierarchy

end ClassTables
