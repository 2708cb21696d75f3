import ClassTables.Output.Writing
import ClassTables.Proofs.Lists
/-!
# Drafts and the files made from them

To make a draft may fail, but a class header is made only where some class names it, and inert classes
are told apart before a layout or a row is made.  So every draft is made (`exists_drafts`), and the
files that are written are those of `Bindings.outputs`, one after the other (`writeAll_eq`).
-/

namespace ClassTables

/-! ## Single drafts -/

theorem Class.headerFragment?_eq (c : Class) : c.headerFragment? = .ok c.headerFragment := by
  unfold headerFragment? headerFragment ensureInstantiable
  cases c.inert <;> rfl

theorem Class.row?_eq {c : Class} (h : c.inert = false) : c.row? = .ok c.row := by
  unfold row? ensureInstantiable
  rw [h]
  rfl

namespace Bindings

variable {b : Bindings} {dirs : OutputDirs} {files : List OutputFile}

/-- The header that a draft holds is the one at its path. -/
theorem classHeaderDraft_eq (b : Bindings) (dirs : OutputDirs) (path : String) :
    b.classHeaderDraft dirs path = (b.classHeader path).map (⟨dirs.header path, ·⟩) := by
  unfold classHeaderDraft classHeader
  cases b.hierarchy.classesIn path with
  | nil => rfl
  | cons first rest =>
      have hparts : (first :: rest).mapM (·.headerFragment?) =
          (.ok ((first :: rest).map (·.headerFragment)) : Except BindingError _) := by
        rw [mapM_eq_ok_iff, List.forall₂_map_right_iff, List.forall₂_same]
        exact fun c _ => c.headerFragment?_eq
      dsimp only
      rw [hparts]
      rfl

/-- Every class in the table of classes has a row. -/
theorem parcelSourceDraft_eq (b : Bindings) (dirs : OutputDirs) (p : Parcel) :
    b.parcelSourceDraft dirs p = .ok ⟨dirs.source p.sourceName, b.parcelSource p⟩ := by
  obtain ⟨rows, hrows⟩ : ∃ rows, (b.hierarchy.dynamicClassesOf p).mapM (·.row?) = .ok rows := by
    apply exists_mapM_eq_ok
    intro c hc
    have hinert : c.inert = false := by simpa using (List.mem_filter.mp hc).2
    exact ⟨c.row, Class.row?_eq hinert⟩
  rw [parcelSourceDraft, hrows]
  rfl

/-- A header that some class names is made. -/
theorem exists_classHeader {path : String} (h : path ∈ Hierarchy.headersOf b.hierarchy.classes) :
    ∃ f, b.classHeader path = .ok f := by
  rw [Hierarchy.headersOf, List.mem_eraseDups] at h
  obtain ⟨c, hc, rfl⟩ := List.mem_map.mp h
  have hmem : c ∈ b.hierarchy.classesIn c.header :=
    List.mem_filter.mpr ⟨hc, beq_self_eq_true _⟩
  rw [classHeader]
  cases hin : b.hierarchy.classesIn c.header with
  | nil => simp [hin] at hmem
  | cons first rest => exact ⟨_, rfl⟩

/-- The headers that are written are headers of classes. -/
theorem mem_headersOf_of_written {path : String} (h : path ∈ b.classHeaderPaths) :
    path ∈ Hierarchy.headersOf b.hierarchy.classes := by
  rw [classHeaderPaths, Hierarchy.headersOf, List.mem_eraseDups] at h
  obtain ⟨c, hc, rfl⟩ := List.mem_map.mp h
  rw [Hierarchy.headersOf, List.mem_eraseDups]
  exact List.mem_map_of_mem (List.mem_filter.mp hc).1

theorem exists_outputs (b : Bindings) (dirs : OutputDirs) : ∃ files, b.outputs dirs = .ok files := by
  have hheaders : ∀ path ∈ b.classHeaderPaths, ∃ f, b.classHeaderFile dirs path = .ok f := by
    intro path hpath
    obtain ⟨f, hf⟩ := exists_classHeader (mem_headersOf_of_written hpath)
    exact ⟨_, bind_eq_ok_iff.mpr ⟨f, hf, rfl⟩⟩
  obtain ⟨fs, hfs⟩ := exists_mapM_eq_ok hheaders
  exact ⟨_, bind_eq_ok_iff.mpr ⟨fs, hfs, rfl⟩⟩

/-! ## All drafts -/

/-- A draft that is made, and the file it is printed as. -/
def Prints (draft? : Except BindingError Draft) (file : OutputFile) : Prop :=
  ∃ d, draft? = .ok d ∧ d.print = file

theorem prints_ok (path : String) (contents : Fragment) :
    Prints (.ok ⟨path, contents⟩) ⟨path, contents.render⟩ := ⟨_, rfl, rfl⟩

theorem prints_parcelDrafts (b : Bindings) (dirs : OutputDirs) (p : Parcel) :
    List.Forall₂ Prints (b.parcelDrafts dirs p) (b.parcelFiles dirs p) := by
  rw [parcelDrafts, parcelFiles]
  apply List.Forall₂.cons (prints_ok _ _)
  cases p.included with
  | true => exact .nil
  | false =>
      apply List.Forall₂.cons _ .nil
      rw [parcelSourceDraft_eq]
      exact prints_ok _ _

/-- **Every draft is made, and printed as the file in its place.** -/
theorem prints_drafts (h : b.outputs dirs = .ok files) :
    List.Forall₂ Prints (b.drafts dirs) files := by
  unfold outputs at h
  obtain ⟨headers, hheaders, h⟩ := bind_eq_ok_iff.mp h
  obtain rfl := Except.ok.inj h
  apply List.rel_append
  · apply List.rel_append
    · apply List.rel_append
      · rw [List.forall₂_map_left_iff]
        apply (mapM_eq_ok_iff.mp hheaders).imp
        intro path file hfile
        obtain ⟨f, hf, hfile⟩ := bind_eq_ok_iff.mp hfile
        obtain rfl := Except.ok.inj hfile
        rw [classHeaderDraft_eq, hf]
        exact prints_ok _ _
      · exact .cons (prints_ok _ _) .nil
    · have hparcels : List.Forall₂ Eq b.hierarchy.parcels b.hierarchy.parcels :=
        List.forall₂_same.mpr fun _ _ => rfl
      apply List.rel_flatMap hparcels
      rintro p _ rfl
      exact prints_parcelDrafts b dirs p
  · exact .cons (prints_ok _ _) .nil

/-- The drafts, and the files that they are printed as. -/
theorem exists_drafts (h : b.outputs dirs = .ok files) :
    ∃ ds : List Draft, b.drafts dirs = ds.map .ok ∧ ds.map (·.print) = files := by
  have hprints := prints_drafts h
  generalize b.drafts dirs = drafts at hprints
  clear h
  induction hprints with
  | nil => exact ⟨[], rfl, rfl⟩
  | cons hprints _ ih =>
      obtain ⟨d, rfl, rfl⟩ := hprints
      obtain ⟨ds, rfl, rfl⟩ := ih
      exact ⟨d :: ds, rfl, rfl⟩

/-! ## Writing -/

section Writing

variable {m : Type → Type} [Monad m] [LawfulMonad m]

/-- **Making and writing files in turn writes the files one after the other.** -/
theorem writeAll_eq (h : b.outputs dirs = .ok files)
    (write : OutputFile → ExceptT BindingError m Unit) :
    b.writeAll write dirs = do
      files.forM write
      return files.map (·.path) := by
  obtain ⟨ds, hds, rfl⟩ := exists_drafts h
  rw [writeAll, hds]
  clear h hds
  induction ds with
  | nil => simp
  | cons d ds ih =>
      rw [List.map_cons, List.mapM_cons, ih]
      simp [liftExcept, Draft.print]

end Writing

end Bindings

end ClassTables
