import ClassTables.Hierarchy.Build
import ClassTables.Manifest.Reader
import ClassTables.Output.Writing
import ClassTables.Run.Error
import ClassTables.Run.Options
/-!
# One run of the compiler

A run reads the manifest, builds the hierarchy, reads the texts for the top and the bottom of
files, and writes all files.  The first failure ends it.
-/

namespace ClassTables

/-- The files of a run, in the order in which they were written. -/
structure Report where
  files : List String
  /-- Nothing was written. -/
  dryRun : Bool
deriving DecidableEq, Repr

/-- The directory for output when neither the arguments nor the manifest name one. -/
def defaultDest : String := "autogen"

/-- Where output goes.  The directories of a manifest are taken from where the manifest is. -/
def outputDirs (o : Options) (m : Manifest) : OutputDirs :=
  let base := (Path.parent? o.manifest).getD ""
  match o.dest, m.dest with
  | some dest, _ => .under dest
  | none, some dirs => ⟨Path.join base dirs.headers, Path.join base dirs.sources⟩
  | none, none => .under (Path.join base defaultDest)

variable {m : Type → Type} [Monad m] [FileAccess m]

/-- The manifest in a file. -/
def loadManifest (path : String) : ExceptT RunError m Manifest := do
  let text ← FileAccess.attempt (.manifestUnreadable path) (FileAccess.readText path)
  match Manifest.parse? text with
  | some manifest => return manifest
  | none => throw .manifestMalformed

/-- The text of a file if one is given, else the text of the manifest, else nothing. -/
def frameText (file given : Option String) : ExceptT RunError m String :=
  match file with
  | some path => FileAccess.attempt (.textUnreadable path) (FileAccess.readText path)
  | none => return given.getD ""

/-- Runs the compiler with the given options. -/
def run (o : Options) : ExceptT RunError m Report := do
  let manifest ← loadManifest o.manifest
  match manifest.declarations.build with
  | .error e => throw (.declarations e)
  | .ok hierarchy =>
    let top ← frameText o.header manifest.header
    let bottom ← frameText o.footer manifest.footer
    let b : Bindings := { hierarchy, platform := manifest.platform, frame := { top, bottom } }
    let write := if o.dryRun then OutputFile.skip else OutputFile.store
    let files ← ExceptT.adapt RunError.generation (b.writeAll write (outputDirs o manifest))
    return { files, dryRun := o.dryRun }

end ClassTables
