import ClassTables.Registry.Spec
import ClassTables.Text.Quoted
/-!
# Parcels that can be started

What is known about a parcel when it is registered, and how far it has been started.
-/

namespace ClassTables

structure ParcelSpec (F : Type) where
  name : String
  /-- The parcels that hold parents of its classes. -/
  inherited : List String := []
  prereqs : List String := []
  /-- Parents before children. -/
  classes : List (ClassSpec F) := []
  /-- The parcel has an initializer, which runs once. -/
  hasInit : Bool := false
deriving DecidableEq, Repr

/-- A list of quoted texts between brackets. -/
def quotedList (ss : List String) : String :=
  "[" ++ ", ".intercalate (ss.map Text.quote) ++ "]"

/-- One line about a parcel, for people who look into a program. -/
def ParcelSpec.describe {F : Type} (p : ParcelSpec F) : String :=
  "ParcelSpec \x7b name: " ++ Text.quote p.name ++ ", inherited: " ++ quotedList p.inherited ++
    ", prereqs: " ++ quotedList p.prereqs ++ ", classes: " ++ toString p.classes.length ++
    ", init: " ++ (if p.hasInit then "true" else "false") ++ " \x7d"

/-- How far a parcel has been started. -/
inductive ParcelState where
  | notStarted
  /-- The parcels it inherits from are being loaded. -/
  | inheritanceInProgress
  /-- Its classes are loaded. -/
  | inheritanceDone
  /-- Its prerequisites and its initializer have run, or are about to. -/
  | parcelDone
deriving DecidableEq, Repr

namespace ParcelState

/-- The position of a state in the order of progress. -/
def rank : ParcelState → Nat
  | notStarted => 0
  | inheritanceInProgress => 1
  | inheritanceDone => 2
  | parcelDone => 3

end ParcelState

end ClassTables
