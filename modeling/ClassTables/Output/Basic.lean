import ClassTables.Output.ClassFiles
import ClassTables.Output.Dirs
import ClassTables.Output.Frame
import ClassTables.Output.PlatformFile
/-!
# Generated files

For a hierarchy and a platform these files are generated, in this order:

| file                | holds                                                          |
|---------------------|----------------------------------------------------------------|
| one header per path | the classes that share it; not for classes of other projects   |
| `cfish_platform.h`  | what is known about the platform                               |
| `<prefix>parcel.h`  | the types and bootstrap functions of a parcel                  |
| `<prefix>parcel.c`  | the data of its classes; not for parcels of other projects     |
| `callbacks.h`       | the callbacks of host languages, defined away                  |
-/

namespace ClassTables

/-- All that the generated files are made from. -/
structure Bindings where
  hierarchy : Hierarchy
  platform : Platform := {}
  frame : Frame := {}
deriving DecidableEq, Repr

/-- A file to be written. -/
structure OutputFile where
  path : String
  text : String
deriving DecidableEq, Repr

namespace Bindings

variable (b : Bindings)

/-! ## Single files -/

/-- The header at a path, or a failure when it declares no class. -/
def classHeader (path : String) : Except BindingError Fragment :=
  match b.hierarchy.classesIn path with
  | [] => .error (.unknownHeader path)
  | first :: rest =>
    .ok (b.frame.guarded (headerGuard path) (Hierarchy.classHeaderBody first rest))

def platformHeader : Fragment := b.frame.guarded platformGuard b.platform.headerBody

def parcelHeader (p : Parcel) : Fragment :=
  b.frame.guarded p.headerGuard (b.hierarchy.parcelHeaderBody p)

def parcelSource (p : Parcel) : Fragment := b.frame.wrap (b.hierarchy.parcelSourceBody p)

def callbacksHeader : Fragment := b.frame.guarded callbacksGuard b.hierarchy.callbacksBody

/-! ## All files -/

/-- The paths of the class headers to be written, in order of first use. -/
def classHeaderPaths : List String :=
  Hierarchy.headersOf (b.hierarchy.classes.filter (!·.included))

def classHeaderFile (dirs : OutputDirs) (path : String) : Except BindingError OutputFile := do
  return ⟨dirs.header path, (← b.classHeader path).render⟩

/-- The files of one parcel. -/
def parcelFiles (dirs : OutputDirs) (p : Parcel) : List OutputFile :=
  ⟨dirs.header p.headerName, (b.parcelHeader p).render⟩ ::
    if p.included then [] else [⟨dirs.source p.sourceName, (b.parcelSource p).render⟩]

/-- All files, in the order in which they are written. -/
def outputs (dirs : OutputDirs) : Except BindingError (List OutputFile) := do
  let classHeaders ← b.classHeaderPaths.mapM (b.classHeaderFile dirs)
  return classHeaders ++ [⟨dirs.header platformHeaderName, b.platformHeader.render⟩] ++
    b.hierarchy.parcels.flatMap (b.parcelFiles dirs) ++
    [⟨dirs.header callbacksName, b.callbacksHeader.render⟩]

end Bindings

end ClassTables
