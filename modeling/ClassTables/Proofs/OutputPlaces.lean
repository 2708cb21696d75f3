import ClassTables.Hierarchy.Build
import ClassTables.Proofs.Drafts
import ClassTables.Proofs.MemoryFiles
import ClassTables.Proofs.Paths
/-!
# Where generated files go

All files are generated, whatever the hierarchy (`exists_outputs`), and written one after the other,
so one that goes to the place of another replaces it.  The names that are given by the library never
meet: the header of the platform, the header of the callbacks, and the headers and sources of parcels
end differently.  What may meet another file is a class header, whose path is given freely, and the
files of parcels whose nicknames agree in small letters (`Separate`).

Main statement: `keep_outputs`.  As many files are kept as are written exactly where none of these
meet, and then each of them holds the text that was generated for it.
-/

namespace ClassTables

open ClassTables.Path (components IsEnding)

/-- Two spellings of different places. -/
def Path.Apart (p q : String) : Prop := components p ≠ components q

instance (p q : String) : Decidable (Path.Apart p q) := inferInstanceAs (Decidable (_ ≠ _))

open ClassTables.Path (Apart)

namespace Bindings

variable {b : Bindings} {dirs : OutputDirs} {files : List OutputFile} {path text : String}
  {p q : Parcel}

/-! ## The paths of the files -/

/-- The paths of the files of a parcel. -/
def parcelPaths (dirs : OutputDirs) (p : Parcel) : List String :=
  dirs.header p.headerName :: if p.included then [] else [dirs.source p.sourceName]

theorem mem_parcelPaths : path ∈ parcelPaths dirs p ↔
    path = dirs.header p.headerName ∨ p.included = false ∧ path = dirs.source p.sourceName := by
  rw [parcelPaths, List.mem_cons]
  cases p.included <;> simp

theorem map_path_parcelFiles (b : Bindings) (dirs : OutputDirs) (p : Parcel) :
    (b.parcelFiles dirs p).map (·.path) = parcelPaths dirs p := by
  rw [parcelFiles, parcelPaths, List.map_cons]
  cases p.included with
  | true => simp only [if_true, List.map_nil]
  | false => simp only [Bool.false_eq_true, if_false, List.map_cons, List.map_nil]

theorem map_path_classHeaders {paths : List String}
    (h : List.Forall₂ (fun path file => b.classHeaderFile dirs path = .ok file) paths files) :
    files.map (·.path) = paths.map dirs.header := by
  induction h with
  | nil => rfl
  | cons hfile _ ih =>
      obtain ⟨f, -, hf⟩ := bind_eq_ok_iff.mp hfile
      obtain rfl := Except.ok.inj hf
      rw [List.map_cons, List.map_cons, ih]

/-- The paths in the order of writing. -/
theorem map_path_outputs (h : b.outputs dirs = .ok files) : files.map (·.path) =
    b.classHeaderPaths.map dirs.header ++ [dirs.header platformHeaderName] ++
      b.hierarchy.parcels.flatMap (parcelPaths dirs) ++ [dirs.header callbacksName] := by
  unfold outputs at h
  obtain ⟨headers, hheaders, h⟩ := bind_eq_ok_iff.mp h
  obtain rfl := Except.ok.inj h
  have hpaths := map_path_classHeaders (mapM_eq_ok_iff.mp hheaders)
  simp only [List.map_append, List.map_cons, List.map_nil, List.map_flatMap, hpaths,
    map_path_parcelFiles]

theorem mem_paths_iff (h : b.outputs dirs = .ok files) : path ∈ files.map (·.path) ↔
    (∃ name ∈ b.classHeaderPaths, dirs.header name = path) ∨
      path = dirs.header platformHeaderName ∨
      (∃ p ∈ b.hierarchy.parcels, path ∈ parcelPaths dirs p) ∨
      path = dirs.header callbacksName := by
  simp only [map_path_outputs h, List.mem_append, List.mem_map, List.mem_flatMap,
    List.mem_singleton, or_assoc]

/-! ## Names that never meet -/

theorem isEnding_parcelHeader : IsEnding "parcel.h" := ⟨by decide, 'h', by decide⟩

theorem isEnding_parcelSource : IsEnding "parcel.c" := ⟨by decide, 'c', by decide⟩

theorem isEnding_platformHeader : IsEnding platformHeaderName := ⟨by decide, 'h', by decide⟩

theorem isEnding_callbacks : IsEnding callbacksName := ⟨by decide, 'h', by decide⟩

theorem exists_header_eq (dirs : OutputDirs) (name : String) :
    ∃ front, dirs.header name = front ++ name :=
  Path.exists_join_eq_append dirs.headers name

theorem exists_parcelHeader_eq (dirs : OutputDirs) (p : Parcel) :
    ∃ front, dirs.header p.headerName = front ++ "parcel.h" := by
  obtain ⟨front, hfront⟩ := exists_header_eq dirs p.headerName
  exact ⟨front ++ p.lowerPrefix, by rw [hfront, Parcel.headerName, String.append_assoc]⟩

theorem exists_parcelSource_eq (dirs : OutputDirs) (p : Parcel) :
    ∃ front, dirs.source p.sourceName = front ++ "parcel.c" := by
  obtain ⟨front, hfront⟩ := Path.exists_join_eq_append dirs.sources p.sourceName
  exact ⟨front ++ p.lowerPrefix, by rw [OutputDirs.source, hfront, Parcel.sourceName,
    String.append_assoc]⟩

theorem parcelHeader_apart_parcelSource (dirs : OutputDirs) (p q : Parcel) :
    Apart (dirs.header p.headerName) (dirs.source q.sourceName) := by
  obtain ⟨front, hp⟩ := exists_parcelHeader_eq dirs p
  obtain ⟨front', hq⟩ := exists_parcelSource_eq dirs q
  rw [hp, hq]
  exact Path.components_ne_of_endings isEnding_parcelHeader isEnding_parcelSource
    (by decide) (by decide)

/-- A name that ends like no file of a parcel is the name of none. -/
theorem header_apart_parcelPaths {name : String} (hname : IsEnding name)
    (hheader : ¬ name.toList <:+ "parcel.h".toList ∧ ¬ "parcel.h".toList <:+ name.toList)
    (hsource : ¬ name.toList <:+ "parcel.c".toList ∧ ¬ "parcel.c".toList <:+ name.toList)
    (hpath : path ∈ parcelPaths dirs p) : Apart (dirs.header name) path := by
  obtain ⟨front, hfront⟩ := exists_header_eq dirs name
  rw [hfront]
  rcases mem_parcelPaths.mp hpath with heq | ⟨-, heq⟩
  · obtain ⟨front', hp⟩ := exists_parcelHeader_eq dirs p
    rw [heq, hp]
    exact Path.components_ne_of_endings hname isEnding_parcelHeader hheader.1 hheader.2
  · obtain ⟨front', hp⟩ := exists_parcelSource_eq dirs p
    rw [heq, hp]
    exact Path.components_ne_of_endings hname isEnding_parcelSource hsource.1 hsource.2

theorem platformHeader_apart_callbacks (dirs : OutputDirs) :
    Apart (dirs.header platformHeaderName) (dirs.header callbacksName) := by
  rw [Apart, OutputDirs.header, OutputDirs.header, Ne,
    Path.components_join_eq_iff isEnding_platformHeader isEnding_callbacks]
  decide

/-! ## Names that may meet -/

/-- No class header goes to the place of another file, and no two parcels have their headers, or
their sources, at one place. -/
structure Separate (b : Bindings) (dirs : OutputDirs) : Prop where
  classHeaders : b.classHeaderPaths.Pairwise fun h k => Apart (dirs.header h) (dirs.header k)
  platformHeader : ∀ h ∈ b.classHeaderPaths, Apart (dirs.header h) (dirs.header platformHeaderName)
  callbacks : ∀ h ∈ b.classHeaderPaths, Apart (dirs.header h) (dirs.header callbacksName)
  parcels : ∀ h ∈ b.classHeaderPaths, ∀ p ∈ b.hierarchy.parcels, ∀ path ∈ parcelPaths dirs p,
    Apart (dirs.header h) path
  parcelHeaders : b.hierarchy.parcels.Pairwise fun p q =>
    Apart (dirs.header p.headerName) (dirs.header q.headerName)
  parcelSources : b.hierarchy.parcels.Pairwise fun p q => p.included = false →
    q.included = false → Apart (dirs.source p.sourceName) (dirs.source q.sourceName)

/-- Two class headers go to one place exactly where they take the same steps. -/
theorem header_apart_iff (hdir : dirs.headers ≠ "") {h k : String}
    (hh : Path.isAbsolute h = false) (hk : Path.isAbsolute k = false) :
    Apart (dirs.header h) (dirs.header k) ↔ Path.steps h ≠ Path.steps k := by
  rw [Apart, OutputDirs.header, OutputDirs.header, Path.components_join hdir hh,
    Path.components_join hdir hk, Ne, Ne, List.append_cancel_left_eq]

/-- The files of one parcel never meet each other. -/
theorem pairwise_parcelPaths (dirs : OutputDirs) (p : Parcel) :
    (parcelPaths dirs p).Pairwise Apart := by
  rw [parcelPaths]
  split
  · exact List.pairwise_singleton _ _
  · exact List.pairwise_pair.mpr (parcelHeader_apart_parcelSource dirs p p)

/-- The files of two parcels are apart where their headers are and the sources that are written. -/
theorem forall_parcelPaths_apart_iff :
    (∀ x ∈ parcelPaths dirs p, ∀ y ∈ parcelPaths dirs q, Apart x y) ↔
      Apart (dirs.header p.headerName) (dirs.header q.headerName) ∧
        (p.included = false → q.included = false →
          Apart (dirs.source p.sourceName) (dirs.source q.sourceName)) := by
  constructor
  · intro h
    refine ⟨h _ (mem_parcelPaths.mpr (Or.inl rfl)) _ (mem_parcelPaths.mpr (Or.inl rfl)), ?_⟩
    intro hp hq
    exact h _ (mem_parcelPaths.mpr (Or.inr ⟨hp, rfl⟩)) _ (mem_parcelPaths.mpr (Or.inr ⟨hq, rfl⟩))
  · rintro ⟨hheaders, hsources⟩ x hx y hy
    rcases mem_parcelPaths.mp hx with hx | ⟨hp, hx⟩
    · rcases mem_parcelPaths.mp hy with hy | ⟨hq, hy⟩
      · rw [hx, hy]
        exact hheaders
      · rw [hx, hy]
        exact parcelHeader_apart_parcelSource dirs p q
    · rcases mem_parcelPaths.mp hy with hy | ⟨hq, hy⟩
      · rw [hx, hy]
        exact (parcelHeader_apart_parcelSource dirs q p).symm
      · rw [hx, hy]
        exact hsources hp hq

/-- Files that are named after parcels without slashes in their prefixes are at one place exactly
where the prefixes agree in small letters. -/
theorem join_lowerPrefix_apart_iff (hp : '/' ∉ p.lowerPrefix.toList)
    (hq : '/' ∉ q.lowerPrefix.toList) (hname : IsEnding text) (base : String) :
    Apart (Path.join base (p.lowerPrefix ++ text)) (Path.join base (q.lowerPrefix ++ text)) ↔
      p.lowerPrefix ≠ q.lowerPrefix := by
  rw [Apart, Ne, Path.components_join_eq_iff (hname.append hp) (hname.append hq),
    String.append_left_inj]

/-- **Parcels without slashes in their prefixes have their files at different places exactly where
the prefixes differ in small letters.** -/
theorem parcels_apart_iff (hplain : ∀ p ∈ b.hierarchy.parcels, '/' ∉ p.lowerPrefix.toList) :
    (b.hierarchy.parcels.Pairwise fun p q => ∀ x ∈ parcelPaths dirs p, ∀ y ∈ parcelPaths dirs q,
      Apart x y) ↔ (b.hierarchy.parcels.map (·.lowerPrefix)).Nodup := by
  rw [List.Nodup, List.pairwise_map]
  constructor
  · intro h
    refine h.imp_of_mem fun hp hq hpq => ?_
    rw [forall_parcelPaths_apart_iff] at hpq
    exact (join_lowerPrefix_apart_iff (hplain _ hp) (hplain _ hq) isEnding_parcelHeader _).mp hpq.1
  · intro h
    refine h.imp_of_mem fun hp hq hne => forall_parcelPaths_apart_iff.mpr ⟨?_, fun _ _ => ?_⟩
    · exact (join_lowerPrefix_apart_iff (hplain _ hp) (hplain _ hq) isEnding_parcelHeader _).mpr hne
    · exact (join_lowerPrefix_apart_iff (hplain _ hp) (hplain _ hq) isEnding_parcelSource _).mpr hne

/-- **The paths written are pairwise different exactly where none of the names meet.** -/
theorem pairwise_paths_iff (h : b.outputs dirs = .ok files) :
    (files.map (·.path)).Pairwise Apart ↔ b.Separate dirs := by
  rw [map_path_outputs h, List.pairwise_append, List.pairwise_append, List.pairwise_append,
    List.pairwise_map, List.pairwise_flatMap]
  constructor
  · rintro ⟨⟨⟨hclasses, -, hplatform⟩, ⟨-, hparcels⟩, hcross⟩, -, hcallbacks⟩
    have hmem : ∀ {k}, k ∈ b.classHeaderPaths → dirs.header k ∈ b.classHeaderPaths.map dirs.header ++
        [dirs.header platformHeaderName] := fun hk =>
      List.mem_append_left _ (List.mem_map_of_mem hk)
    refine ⟨hclasses, ?_, ?_, ?_, ?_, ?_⟩
    · exact fun k hk => hplatform _ (List.mem_map_of_mem hk) _ (List.mem_singleton_self _)
    · exact fun k hk => hcallbacks _ (List.mem_append_left _ (hmem hk)) _ (List.mem_singleton_self _)
    · intro k hk p hp path hpath
      exact hcross _ (hmem hk) _ (List.mem_flatMap.mpr ⟨p, hp, hpath⟩)
    · exact hparcels.imp fun hpq => (forall_parcelPaths_apart_iff.mp hpq).1
    · exact hparcels.imp fun hpq => (forall_parcelPaths_apart_iff.mp hpq).2
  · intro hsep
    have hpairs := List.pairwise_and_iff.mpr ⟨hsep.parcelHeaders, hsep.parcelSources⟩
    refine ⟨⟨⟨hsep.classHeaders, List.pairwise_singleton _ _, ?_⟩,
      ⟨fun p _ => pairwise_parcelPaths dirs p, hpairs.imp forall_parcelPaths_apart_iff.mpr⟩, ?_⟩,
      List.pairwise_singleton _ _, ?_⟩
    · intro x hx y hy
      obtain ⟨k, hk, rfl⟩ := List.mem_map.mp hx
      obtain rfl := List.mem_singleton.mp hy
      exact hsep.platformHeader k hk
    · intro x hx y hy
      obtain ⟨p, hp, hpath⟩ := List.mem_flatMap.mp hy
      rcases List.mem_append.mp hx with hx | hx
      · obtain ⟨k, hk, rfl⟩ := List.mem_map.mp hx
        exact hsep.parcels k hk p hp y hpath
      · obtain rfl := List.mem_singleton.mp hx
        exact header_apart_parcelPaths isEnding_platformHeader (by decide) (by decide) hpath
    · intro x hx y hy
      obtain rfl := List.mem_singleton.mp hy
      rcases List.mem_append.mp hx with hx | hx
      · rcases List.mem_append.mp hx with hx | hx
        · obtain ⟨k, hk, rfl⟩ := List.mem_map.mp hx
          exact hsep.callbacks k hk
        · obtain rfl := List.mem_singleton.mp hx
          exact platformHeader_apart_callbacks dirs
      · obtain ⟨p, hp, hpath⟩ := List.mem_flatMap.mp hx
        exact (header_apart_parcelPaths isEnding_callbacks (by decide) (by decide) hpath).symm

/-! ## What is kept -/

/-- The store after keeping some files one after the other. -/
theorem run_keep (files : List OutputFile) (kept : MemoryFiles) :
    (files.forM OutputFile.keep).run.run kept =
      (.ok (), files.foldl (fun kept f => kept.write f.path f.text) kept) := by
  induction files generalizing kept with
  | nil => rfl
  | cons f fs ih => exact ih (kept.write f.path f.text)

/-- The store after keeping some files in an empty one. -/
def keptFiles (files : List OutputFile) : MemoryFiles :=
  .store (files.map fun f => (f.path, f.text))

theorem get?_keptFiles (files : List OutputFile) (path : String) : (keptFiles files).get? path =
    (files.reverse.find? fun f => components f.path == components path).map (·.text) := by
  rw [keptFiles, MemoryFiles.get?_store, ← List.map_reverse, List.find?_map, Option.map_map]
  rfl

theorem size_keptFiles (files : List OutputFile) :
    (keptFiles files).size = ((files.map (·.path)).map components).dedup.length := by
  rw [keptFiles, MemoryFiles.size_store, List.map_map, List.map_map]
  rfl

theorem run_writeAll_keep (h : b.outputs dirs = .ok files) :
    (b.writeAll OutputFile.keep dirs).run.run {} =
      (.ok (files.map (·.path)), keptFiles files) := by
  have hkeep := run_keep files {}
  rw [writeAll_eq h, ExceptT.run_bind, StateT.run_bind, hkeep, keptFiles, MemoryFiles.store,
    List.foldl_map]
  rfl

/-- **What is kept of the generated files.**  All files are generated and their paths returned.  A
path holds the text of the last file at its place, and there are as many entries as places.  The
paths are pairwise different exactly where no names meet, only then there are as many entries as
files, and every file keeps its own text. -/
theorem keep_outputs (b : Bindings) (dirs : OutputDirs) : ∃ files kept,
    b.outputs dirs = .ok files ∧
    (b.writeAll OutputFile.keep dirs).run.run {} = (.ok (files.map (·.path)), kept) ∧
    (∀ path, kept.get? path =
      (files.reverse.find? fun f => components f.path == components path).map (·.text)) ∧
    kept.size = ((files.map (·.path)).map components).dedup.length ∧
    ((files.map (·.path)).Pairwise Apart ↔ b.Separate dirs) ∧
    (kept.size = files.length ↔ b.Separate dirs) ∧
    (b.Separate dirs → ∀ f ∈ files, kept.get? f.path = some f.text) := by
  obtain ⟨files, hfiles⟩ := exists_outputs b dirs
  have hplaces : ((files.map (·.path)).map components).Nodup ↔ b.Separate dirs := by
    rw [← pairwise_paths_iff hfiles, List.Nodup, List.pairwise_map]
    rfl
  have hget := get?_keptFiles files
  have hsize := size_keptFiles files
  refine ⟨files, _, hfiles, run_writeAll_keep hfiles, hget, hsize, pairwise_paths_iff hfiles, ?_, ?_⟩
  · rw [hsize, ← hplaces, ← List.dedup_eq_self]
    constructor
    · intro hlen
      apply (List.dedup_sublist _).eq_of_length
      rw [hlen, List.length_map, List.length_map]
    · intro heq
      rw [heq, List.length_map, List.length_map]
  · intro hsep f hf
    have hnd : (files.reverse.map fun f => components f.path).Nodup := by
      rw [List.map_reverse, List.nodup_reverse]
      rw [← hplaces, List.map_map] at hsep
      exact hsep
    rw [hget, (find?_key_eq_some_iff hnd).mpr ⟨List.mem_reverse.mpr hf, rfl⟩, Option.map_some]

end Bindings

/-! ## A header that is kept, and one that is lost -/

/-- Two classes share a header; the second one spells it as given. -/
def twoShapes (header : String) : Declarations :=
  { parcels := [{ name := "App" }, { name := "Lib", included := true }]
    classes :=
      [{ name := "App::Circle", parcel := "App", header := some "App/Shapes.h" },
       { name := "App::Square", parcel := "App", header := some header }] }

/-- Spelt in one way, the header holds both: six files are written, and all are kept. -/
theorem twoShapes_kept : ∃ b : Bindings, (twoShapes "App/Shapes.h").build = .ok b.hierarchy ∧
    b.Separate ⟨"inc", "src"⟩ ∧ ∃ (files : List OutputFile) (kept : MemoryFiles),
      (b.writeAll OutputFile.keep ⟨"inc", "src"⟩).run.run {} = (.ok (files.map (·.path)), kept) ∧
      files.length = 6 ∧ kept.size = 6 ∧ ∀ f ∈ files, kept.get? f.path = some f.text := by
  let h : Hierarchy := (twoShapes "App/Shapes.h").build.toOption.getD ⟨[], [], []⟩
  let b : Bindings := { hierarchy := h }
  have hb : (twoShapes "App/Shapes.h").build = .ok b.hierarchy := by decide +kernel
  have hclasses : b.classHeaderPaths = ["App/Shapes.h"] := by decide +kernel
  have hparcels : b.hierarchy.parcels = [⟨"App", "App", false, []⟩, ⟨"Lib", "Lib", true, []⟩] := by
    decide +kernel
  have hsep : b.Separate ⟨"inc", "src"⟩ := by
    constructor <;> simp only [hclasses, hparcels] <;> decide +kernel
  obtain ⟨files, kept, hfiles, hrun, -, -, -, hsize, htexts⟩ :=
    Bindings.keep_outputs b ⟨"inc", "src"⟩
  have hlength : files.length = 6 := by
    rw [← List.length_map (·.path), Bindings.map_path_outputs hfiles, hclasses, hparcels]
    rfl
  exact ⟨b, hb, hsep, files, kept, hrun, hlength, hlength ▸ hsize.mpr hsep, htexts hsep⟩

/-- **Spelt in two ways, the header is lost:** seven files are written and six are kept, as the
headers of the circle and the square go to one place. -/
theorem twoShapes_lost : ∃ b : Bindings, (twoShapes "App//Shapes.h").build = .ok b.hierarchy ∧
    ∃ paths kept, (b.writeAll OutputFile.keep ⟨"inc", "src"⟩).run.run {} = (.ok paths, kept) ∧
      paths = ["inc/App/Shapes.h", "inc/App//Shapes.h", "inc/cfish_platform.h",
        "inc/app_parcel.h", "src/app_parcel.c", "inc/lib_parcel.h", "inc/callbacks.h"] ∧
      ¬ paths.Pairwise Apart ∧ kept.size = 6 := by
  let h : Hierarchy := (twoShapes "App//Shapes.h").build.toOption.getD ⟨[], [], []⟩
  let b : Bindings := { hierarchy := h }
  have hb : (twoShapes "App//Shapes.h").build = .ok b.hierarchy := by decide +kernel
  obtain ⟨files, hfiles⟩ := b.exists_outputs ⟨"inc", "src"⟩
  have hpaths := Bindings.map_path_outputs hfiles
  have hclasses : b.classHeaderPaths = ["App/Shapes.h", "App//Shapes.h"] := by decide +kernel
  have hparcels : b.hierarchy.parcels.flatMap (Bindings.parcelPaths ⟨"inc", "src"⟩) =
      ["inc/app_parcel.h", "src/app_parcel.c", "inc/lib_parcel.h"] := by decide +kernel
  rw [hclasses, hparcels] at hpaths
  refine ⟨b, hb, _, _, Bindings.run_writeAll_keep hfiles, hpaths, ?_, ?_⟩
  · rw [hpaths]
    decide +kernel
  · rw [Bindings.size_keptFiles, hpaths]
    decide +kernel

end ClassTables
