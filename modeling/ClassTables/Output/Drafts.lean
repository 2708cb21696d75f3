import ClassTables.Output.Basic
/-!
# Files that are not yet text

Files are made one after the other, and to make one may fail: a header that no class is declared in,
or an inert class where a layout or a row is needed.  A *draft* is a file that has been made and not
printed.  `Bindings.drafts` holds, in the order of writing, each draft or the failure in its place.
-/

namespace ClassTables

/-- A file whose contents are not printed yet. -/
structure Draft where
  path : String
  contents : Fragment

/-- The file as text. -/
def Draft.print (d : Draft) : OutputFile := ⟨d.path, d.contents.render⟩

/-- The declarations of a class, or a failure where an inert one would need a layout. -/
def Class.headerFragment? (c : Class) : Except BindingError Fragment :=
  if c.inert then .ok c.inertHeader
  else do
    c.ensureInstantiable
    return c.dynamicHeader

namespace Bindings

variable (b : Bindings) (dirs : OutputDirs)

/-- The header at a path, or a failure when it declares no class. -/
def classHeaderDraft (path : String) : Except BindingError Draft :=
  match b.hierarchy.classesIn path with
  | [] => .error (.unknownHeader path)
  | first :: rest => do
    let declarations ← (first :: rest).mapM (·.headerFragment?)
    let body := [.includeOwn first.parcel.headerName, .blank] ++ declarations.flatten
    return ⟨dirs.header path, b.frame.guarded (headerGuard path) body⟩

/-- The source of a parcel, or a failure when a class in the table of classes has no row. -/
def parcelSourceDraft (p : Parcel) : Except BindingError Draft := do
  let _ ← (b.hierarchy.dynamicClassesOf p).mapM (·.row?)
  return ⟨dirs.source p.sourceName, b.parcelSource p⟩

/-- The files of one parcel. -/
def parcelDrafts (p : Parcel) : List (Except BindingError Draft) :=
  .ok ⟨dirs.header p.headerName, b.parcelHeader p⟩ ::
    if p.included then [] else [b.parcelSourceDraft dirs p]

/-- All files, in the order in which they are written. -/
def drafts : List (Except BindingError Draft) :=
  b.classHeaderPaths.map (b.classHeaderDraft dirs) ++
    [.ok ⟨dirs.header platformHeaderName, b.platformHeader⟩] ++
    b.hierarchy.parcels.flatMap (b.parcelDrafts dirs) ++
    [.ok ⟨dirs.header callbacksName, b.callbacksHeader⟩]

end Bindings

end ClassTables
