import ClassTables.Text.Cut
import ClassTables.Text.Name
/-!
# Command-line options

The arguments of the compiler are a list of *settings*.  A setting that takes a value has it in the
next argument or after an equals sign in the same one; of two settings of one option the later
counts.  Only a manifest must be given.
-/

namespace ClassTables

structure Options where
  manifest : String
  /-- Overrides the output directories of the manifest. -/
  dest : Option String := none
  /-- File with the text at the top of every file. -/
  header : Option String := none
  /-- File with the text at the bottom of every file. -/
  footer : Option String := none
  dryRun : Bool := false
deriving DecidableEq, Repr

/-! ## Settings -/

/-- An option with a value. -/
inductive ValueFlag where
  | manifest
  | dest
  | header
  | footer
deriving DecidableEq, Repr

def ValueFlag.name : ValueFlag → String
  | manifest => "--manifest"
  | dest => "--dest"
  | header => "--header"
  | footer => "--footer"

def ValueFlag.ofName? (s : String) : Option ValueFlag :=
  [manifest, dest, header, footer].find? (·.name == s)

theorem ValueFlag.ofName?_eq_some_iff {s : String} {f : ValueFlag} :
    ofName? s = some f ↔ s = f.name := by
  constructor
  · intro h
    unfold ofName? at h
    have := List.find?_some h
    exact (beq_iff_eq.1 this).symm
  · rintro rfl
    cases f <;> decide

def dryRunName : String := "--dry-run"

inductive Setting where
  | value (flag : ValueFlag) (text : String)
  | dryRun
deriving DecidableEq, Repr

/-- A fault in the arguments. -/
inductive UsageError where
  | missingValue (flag : String)
  | unknownArgument (arg : String)
  | missingManifest
deriving DecidableEq, Repr

def UsageError.message : UsageError → String
  | missingValue f => "missing value for " ++ Text.name f
  | unknownArgument a => "unknown argument " ++ Text.name a
  | missingManifest => "missing " ++ Text.name ValueFlag.manifest.name

/-- An argument in front of its first equals sign and after it.  Only arguments that start with two
dashes are split. -/
def splitArg (arg : String) : String × Option String :=
  match Text.splitOnce? '=' arg.toList with
  | some ('-' :: '-' :: flag, value) =>
    (String.ofList ('-' :: '-' :: flag), some (String.ofList value))
  | _ => (arg, none)

/-- The settings that arguments spell, or the first fault. -/
def readSettings : List String → Except UsageError (List Setting)
  | [] => .ok []
  | arg :: rest =>
    if (splitArg arg).1 = dryRunName then (readSettings rest).map (.dryRun :: ·)
    else
      match ValueFlag.ofName? (splitArg arg).1 with
      | none => .error (.unknownArgument (splitArg arg).1)
      | some flag =>
        match (splitArg arg).2, rest with
        | some text, rest => (readSettings rest).map (.value flag text :: ·)
        | none, text :: rest => (readSettings rest).map (.value flag text :: ·)
        | none, [] => .error (.missingValue (splitArg arg).1)

/-! ## Options from settings -/

/-- The value of the last setting of an option. -/
def lastValue? (settings : List Setting) (flag : ValueFlag) : Option String :=
  (settings.filterMap fun
    | .value f text => if f = flag then some text else none
    | .dryRun => none).getLast?

/-- The options that settings make; without a manifest there are none. -/
def Options.ofSettings? (settings : List Setting) : Option Options :=
  (lastValue? settings .manifest).map fun manifest =>
    { manifest
      dest := lastValue? settings .dest
      header := lastValue? settings .header
      footer := lastValue? settings .footer
      dryRun := settings.contains .dryRun }

/-- The options that arguments spell, or the first fault. -/
def Options.parse (args : List String) : Except UsageError Options := do
  match ofSettings? (← readSettings args) with
  | some o => .ok o
  | none => .error .missingManifest

end ClassTables
