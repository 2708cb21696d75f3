import ClassTables.Json.Basic
/-!
# Reading records

A record is written as an object with one member per field, or as an array of the values in field
order in which trailing fields may be left out.  `record?` brings both to one form, the list of the
values given for the fields; a field that is not given has no value there.

A field is read by what it says in its place: `required`, `withDefault`, and the readers of single
values.  A field that may be absent is not read as absent when it is given as `null`, unless its
reader says so (`optional`).
-/

namespace ClassTables.Json

/-- Whether members outside the fields of a record are faults. -/
inductive Strictness where
  | closed
  | lenient
deriving DecidableEq, Repr

/-- The value of a field among members with known keys. -/
def fieldValue (members : List (String × Json)) (field : String) : Option Json :=
  (members.find? (·.1 == field)).map (·.2)

/-- Members whose keys are all texts. -/
def textKeys? (members : List (Literal × Json)) : Option (List (String × Json)) :=
  members.mapM fun m => m.1.map fun k => (k, m.2)

/-- Whether no field is given twice. -/
def fieldsOnce (fields : List String) (members : List (String × Json)) : Bool :=
  fields.all fun f => (members.filter (·.1 == f)).length ≤ 1

/-- The values given for the fields of a record, in field order. -/
def record? (strictness : Strictness) (fields : List String) : Json → Option (List (Option Json))
  | .obj literals => do
    let members ← textKeys? literals
    guard (fieldsOnce fields members)
    guard (strictness = .lenient || members.all fun m => fields.contains m.1)
    return fields.map (fieldValue members)
  | .arr items =>
    if items.length ≤ fields.length then
      some (items.map some ++ List.replicate (fields.length - items.length) none)
    else none
  | _ => none

/-! ## Fields -/

/-- A field that must be given. -/
def required {α : Type} (read : Json → Option α) : Option Json → Option α
  | some j => read j
  | none => none

/-- A field that has a value of its own when it is not given. -/
def withDefault {α : Type} (default : α) (read : Json → Option α) : Option Json → Option α
  | some j => read j
  | none => some default

/-! ## Values -/

def readText : Json → Option String
  | .str t => t
  | _ => none

def readBool : Json → Option Bool
  | .bool b => some b
  | _ => none

/-- A number of 32 bits. -/
def readU32 : Json → Option Nat
  | .nat n => if n < UInt32.size then some n else none
  | _ => none

def readList {α : Type} (read : Json → Option α) : Json → Option (List α)
  | .arr items => items.mapM read
  | _ => none

/-- A value or `null`. -/
def optional {α : Type} (read : Json → Option α) : Json → Option (Option α)
  | .null => some none
  | j => (read j).map some

end ClassTables.Json
