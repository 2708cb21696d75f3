import ClassTables.Proofs.OutputPlaces
/-!
# Files and their directories

A file goes below a directory unless its name is absolute, for then the directory is not used at all.
The library's own names are not absolute.  The headers of classes may be, as their paths are given
freely, and the files of a parcel are where its nickname starts with a slash.

Main statement: `stays_inside_iff`.  Every file is below the directory of headers or that of sources
exactly where no absolute name leads out of them; where both directories are given by relative paths,
exactly where no name is absolute.  `oneDog_outside` shows a class whose header leaves them.
-/

namespace ClassTables

open ClassTables.Path (components isAbsolute join Component Anchor)

/-! ## Small letters and slashes -/

namespace Text

theorem toLower_eq_slash_iff {c : Char} : c.toLower = '/' ↔ c = '/' := by
  constructor
  · intro h
    unfold Char.toLower at h
    split at h
    · next hupper =>
        -- capitals move up, and the slash is below all of them
        have hlow : 65 ≤ c.val.toNat := UInt32.le_iff_toNat_le.mp hupper.1
        have hhigh : c.val.toNat ≤ 90 := UInt32.le_iff_toNat_le.mp hupper.2
        have hsum : (c.val.toNat + 32) % 2 ^ 32 = 47 := congrArg (fun d : Char => d.val.toNat) h
        omega
    · exact h
  · rintro rfl
    rfl

theorem ofNat_ne_slash {n : Nat} (h : 47 < n) : Char.ofNat n ≠ '/' := by
  intro heq
  by_cases hn : n.isValidChar
  · have hvalid : Char.ofNatAux n hn = '/' := (dif_pos hn).symm.trans heq
    have hcode : n = 47 := congrArg Char.toNat hvalid
    omega
  · have hnul : '\x00' = '/' := (dif_neg hn).symm.trans heq
    exact absurd hnul (by decide)

/-- No letter moves down to the slash. -/
theorem slash_lt_of_mem : ∀ s ∈ smallShifts, (47 : Int) < s.first + s.delta := by decide +kernel

theorem shifted?_ne_slash {n : Nat} : shifted? smallShifts n ≠ some '/' := by
  intro h
  obtain ⟨s, hs, heq⟩ := Option.map_eq_some_iff.mp h
  have hcovers := List.find?_some hs
  have hdelta := slash_lt_of_mem s (List.mem_of_find?_eq_some hs)
  have hfirst : s.first ≤ n := by
    simp only [CaseShift.covers, Bool.and_eq_true, decide_eq_true_eq] at hcovers
    exact hcovers.1.1
  exact ofNat_ne_slash (by omega) heq

/-- The small form of a character starts with a slash exactly where the character is one. -/
theorem head?_small_eq_slash_iff {c : Char} : (small c).head? = some '/' ↔ c = '/' := by
  unfold small
  split
  · rw [List.head?_cons, Option.some.injEq, toLower_eq_slash_iff]
  · next hascii =>
      have hc : c ≠ '/' := by
        rintro rfl
        exact hascii (by decide)
      rw [iff_false_right hc]
      split
      · decide
      · rw [List.head?_cons, Option.some.injEq]
        cases hshift : shifted? smallShifts c.toNat with
        | none => exact hc
        | some d =>
            rintro rfl
            exact shifted?_ne_slash hshift

theorem small_ne_nil (c : Char) : small c ≠ [] := by
  unfold small
  split
  · exact List.cons_ne_nil _ _
  · split <;> exact List.cons_ne_nil _ _

theorem isAbsolute_toLower (s : String) : isAbsolute (toLower s) = isAbsolute s := by
  rw [Bool.eq_iff_iff, isAbsolute, isAbsolute, beq_iff_eq, beq_iff_eq, toLower, String.toList_ofList]
  cases s.toList with
  | nil => rfl
  | cons c cs =>
      rw [smallChars, List.head?_cons, Option.some.injEq]
      split
      · next hsigma =>
          -- a sigma becomes one of two small sigmas, by what follows it
          have hc : c ≠ '/' := by
            rintro rfl
            exact absurd hsigma (by decide)
          rw [iff_false_right hc]
          split <;> simp
      · rw [List.head?_append_of_ne_nil _ (small_ne_nil c), head?_small_eq_slash_iff]

end Text

/-! ## Absolute paths -/

namespace Path

variable {dir path : String}

/-- A path starts with a directory, component by component. -/
def StartsWith (path dir : String) : Prop := components dir <+: components path

instance (path dir : String) : Decidable (StartsWith path dir) :=
  inferInstanceAs (Decidable (_ <+: _))

theorem join_of_absolute (h : isAbsolute path = true) : join dir path = path := by
  rw [join, h, if_pos rfl]

theorem startsWith_join (h : isAbsolute path = false) : StartsWith (join dir path) dir := by
  unfold StartsWith
  by_cases hdir : dir = ""
  · subst hdir
    exact List.nil_prefix
  · rw [components_join hdir h]
    exact List.prefix_append _ _

/-- What is appended does not make a path absolute, unless it is absolute itself. -/
theorem isAbsolute_append {rest : String} (hrest : isAbsolute rest = false) :
    isAbsolute (path ++ rest) = isAbsolute path := by
  rw [isAbsolute, isAbsolute, String.toList_append]
  cases path.toList with
  | nil => exact hrest
  | cons c cs => rfl

/-- Only the start of a path is the root. -/
theorem root_ne_component? {segment : List Char} : component? segment ≠ some .root := by
  unfold component?
  split
  · simp
  · split <;> simp

theorem head?_components (h : isAbsolute path = true) : (components path).head? = some .root := by
  obtain ⟨cs, hcs⟩ := List.head?_eq_some_iff.mp (beq_iff_eq.mp h)
  rw [components, hcs]
  rfl

theorem root_mem_anchor {a : Anchor} (h : Component.root ∈ a.components) : a = .root := by
  cases a with
  | root => rfl
  | here => simp [Anchor.components] at h
  | bare => simp [Anchor.components] at h

theorem isAbsolute_of_root_mem (h : Component.root ∈ components path) : isAbsolute path = true := by
  have hanchor : (splitAnchor path.toList).1 = .root := by
    rcases List.mem_append.mp h with hroot | hroot
    · exact root_mem_anchor hroot
    · obtain ⟨segment, -, hsegment⟩ := List.mem_filterMap.mp hroot
      exact absurd hsegment root_ne_component?
  unfold splitAnchor at hanchor
  split at hanchor
  · next cs hcs =>
      rw [isAbsolute, hcs]
      rfl
  all_goals cases hanchor

/-- An absolute path starts with no directory that a relative path gives, unless that is empty. -/
theorem not_startsWith_of_absolute (hpath : isAbsolute path = true) (hdir : isAbsolute dir = false)
    (hsteps : components dir ≠ []) : ¬ StartsWith path dir := by
  rintro ⟨rest, hrest⟩
  have hhead := head?_components hpath
  rw [← hrest, List.head?_append_of_ne_nil _ hsteps] at hhead
  have habsolute := isAbsolute_of_root_mem (List.mem_of_mem_head? hhead)
  rw [hdir] at habsolute
  cases habsolute

end Path

/-! ## Output directories -/

namespace OutputDirs

variable {dirs : OutputDirs} {path : String}

/-- The directories hold a path that starts with one of them. -/
def Holds (dirs : OutputDirs) (path : String) : Prop :=
  Path.StartsWith path dirs.headers ∨ Path.StartsWith path dirs.sources

instance (dirs : OutputDirs) (path : String) : Decidable (dirs.Holds path) :=
  inferInstanceAs (Decidable (_ ∨ _))

/-- Both directories are given by relative paths that take some step. -/
structure Relative (dirs : OutputDirs) : Prop where
  headers : isAbsolute dirs.headers = false
  sources : isAbsolute dirs.sources = false
  headersStep : components dirs.headers ≠ []
  sourcesStep : components dirs.sources ≠ []

theorem holds_header_iff : dirs.Holds (dirs.header path) ↔ (isAbsolute path = true → dirs.Holds path) := by
  unfold header
  cases hpath : isAbsolute path with
  | true => simp only [Path.join_of_absolute hpath, true_imp_iff]
  | false => exact iff_of_true (.inl (Path.startsWith_join hpath)) (by simp)

theorem holds_source_iff : dirs.Holds (dirs.source path) ↔ (isAbsolute path = true → dirs.Holds path) := by
  unfold source
  cases hpath : isAbsolute path with
  | true => simp only [Path.join_of_absolute hpath, true_imp_iff]
  | false => exact iff_of_true (.inr (Path.startsWith_join hpath)) (by simp)

theorem Relative.not_holds (h : dirs.Relative) (hpath : isAbsolute path = true) :
    ¬ dirs.Holds path := by
  rintro (hheaders | hsources)
  · exact Path.not_startsWith_of_absolute hpath h.headers h.headersStep hheaders
  · exact Path.not_startsWith_of_absolute hpath h.sources h.sourcesStep hsources

end OutputDirs

/-! The files of a parcel have absolute names where its nickname is one. -/

namespace Parcel

theorem isAbsolute_lowerPrefix (p : Parcel) : isAbsolute p.lowerPrefix = isAbsolute p.nickname := by
  rw [lowerPrefix, Text.isAbsolute_toLower, capPrefix, Path.isAbsolute_append (by decide)]

theorem isAbsolute_headerName (p : Parcel) : isAbsolute p.headerName = isAbsolute p.nickname := by
  rw [headerName, Path.isAbsolute_append (by decide), isAbsolute_lowerPrefix]

theorem isAbsolute_sourceName (p : Parcel) : isAbsolute p.sourceName = isAbsolute p.nickname := by
  rw [sourceName, Path.isAbsolute_append (by decide), isAbsolute_lowerPrefix]

end Parcel

namespace Bindings

variable {b : Bindings} {dirs : OutputDirs} {files : List OutputFile}

/-- No absolute name leads out of the directories. -/
structure Confined (b : Bindings) (dirs : OutputDirs) : Prop where
  classHeaders : ∀ h ∈ b.classHeaderPaths, isAbsolute h = true → dirs.Holds h
  parcelHeaders : ∀ p ∈ b.hierarchy.parcels, isAbsolute p.nickname = true → dirs.Holds p.headerName
  parcelSources : ∀ p ∈ b.hierarchy.parcels, p.included = false → isAbsolute p.nickname = true →
    dirs.Holds p.sourceName

theorem holds_parcelPaths_iff {p : Parcel} : (∀ path ∈ parcelPaths dirs p, dirs.Holds path) ↔
    (isAbsolute p.nickname = true → dirs.Holds p.headerName) ∧
      (p.included = false → isAbsolute p.nickname = true → dirs.Holds p.sourceName) := by
  rw [← p.isAbsolute_headerName, ← OutputDirs.holds_header_iff, p.isAbsolute_headerName,
    ← p.isAbsolute_sourceName, ← OutputDirs.holds_source_iff]
  constructor
  · intro hall
    exact ⟨hall _ (mem_parcelPaths.mpr (.inl rfl)),
      fun hincluded => hall _ (mem_parcelPaths.mpr (.inr ⟨hincluded, rfl⟩))⟩
  · rintro ⟨hheader, hsource⟩ path hpath
    rcases mem_parcelPaths.mp hpath with rfl | ⟨hincluded, rfl⟩
    · exact hheader
    · exact hsource hincluded

/-- Files leave the directories by absolute names only. -/
theorem holds_paths_iff (h : b.outputs dirs = .ok files) :
    (∀ path ∈ files.map (·.path), dirs.Holds path) ↔ b.Confined dirs := by
  constructor
  · intro hall
    have hparcels : ∀ p ∈ b.hierarchy.parcels, ∀ path ∈ parcelPaths dirs p, dirs.Holds path :=
      fun p hp path hpath => hall path ((mem_paths_iff h).mpr (.inr (.inr (.inl ⟨p, hp, hpath⟩))))
    constructor
    · intro name hname
      exact OutputDirs.holds_header_iff.mp
        (hall _ ((mem_paths_iff h).mpr (.inl ⟨name, hname, rfl⟩)))
    · intro p hp
      exact (holds_parcelPaths_iff.mp (hparcels p hp)).1
    · intro p hp
      exact (holds_parcelPaths_iff.mp (hparcels p hp)).2
  · intro hconfined path hpath
    rcases (mem_paths_iff h).mp hpath with ⟨name, hname, rfl⟩ | rfl | ⟨p, hp, hpath⟩ | rfl
    · exact OutputDirs.holds_header_iff.mpr (hconfined.classHeaders name hname)
    · exact OutputDirs.holds_header_iff.mpr fun habs => absurd habs (by decide)
    · exact holds_parcelPaths_iff.mpr ⟨hconfined.parcelHeaders p hp, hconfined.parcelSources p hp⟩
        path hpath
    · exact OutputDirs.holds_header_iff.mpr fun habs => absurd habs (by decide)

/-- Directories given by relative paths hold no absolute name. -/
theorem confined_iff_of_relative (h : dirs.Relative) : b.Confined dirs ↔
    (∀ name ∈ b.classHeaderPaths, isAbsolute name = false) ∧
      ∀ p ∈ b.hierarchy.parcels, isAbsolute p.nickname = false := by
  constructor
  · intro hconfined
    constructor
    · intro name hname
      rw [Bool.eq_false_iff]
      exact fun habs => h.not_holds habs (hconfined.classHeaders name hname habs)
    · intro p hp
      rw [Bool.eq_false_iff]
      intro habs
      have hheader : isAbsolute p.headerName = true := p.isAbsolute_headerName.trans habs
      exact h.not_holds hheader (hconfined.parcelHeaders p hp habs)
  · rintro ⟨hheaders, hparcels⟩
    constructor
    · intro name hname habs
      exact absurd habs (by simp [hheaders name hname])
    · intro p hp habs
      exact absurd habs (by simp [hparcels p hp])
    · intro p hp _ habs
      exact absurd habs (by simp [hparcels p hp])

/-- **What leads out of the directories.**  Whatever writes the files, their paths all start with the
directory of headers or with that of sources, component by component, exactly where each absolute
name does: that of a class header, or of the files of a parcel whose nickname is absolute.  Where the
directories are given by relative paths, no absolute name does. -/
theorem stays_inside_iff (b : Bindings) (dirs : OutputDirs) : ∃ files : List OutputFile,
    b.outputs dirs = .ok files ∧
    (∀ {m : Type → Type} [Monad m] [LawfulMonad m] (write : OutputFile → ExceptT BindingError m Unit),
      b.writeAll write dirs = do
        files.forM write
        return files.map (·.path)) ∧
    ((∀ path ∈ files.map (·.path), dirs.Holds path) ↔ b.Confined dirs) ∧
    (dirs.Relative → ((∀ path ∈ files.map (·.path), dirs.Holds path) ↔
      (∀ name ∈ b.classHeaderPaths, isAbsolute name = false) ∧
        ∀ p ∈ b.hierarchy.parcels, isAbsolute p.nickname = false)) := by
  obtain ⟨files, hfiles⟩ := exists_outputs b dirs
  refine ⟨files, hfiles, writeAll_eq hfiles, holds_paths_iff hfiles, ?_⟩
  intro hrelative
  rw [holds_paths_iff hfiles, confined_iff_of_relative hrelative]

end Bindings

/-! ## A header inside, and one outside -/

/-- A class of a zoo, whose header is given or made from the name. -/
def oneDog (name : String) (header : Option String) : Declarations :=
  { parcels := [{ name := "Zoo" }]
    classes := [{ name, parcel := "Zoo", header }] }

/-- The header is inside where its path is made from the name of the class, and where it is absolute
and names a place in the directory of headers. -/
theorem oneDog_inside :
    (∃ b : Bindings, (oneDog "Zoo::Dog" none).build = .ok b.hierarchy ∧
      OutputDirs.Relative ⟨"inc", "src"⟩ ∧ ∃ files : List OutputFile,
        b.outputs ⟨"inc", "src"⟩ = .ok files ∧
        ∀ path ∈ files.map (·.path), OutputDirs.Holds ⟨"inc", "src"⟩ path) ∧
    ∃ b : Bindings, (oneDog "Zoo::Dog" (some "/zoo/inc/Dog.h")).build = .ok b.hierarchy ∧
      b.Confined ⟨"/zoo/inc", "/zoo/src"⟩ ∧ ∃ files : List OutputFile,
        b.outputs ⟨"/zoo/inc", "/zoo/src"⟩ = .ok files ∧
        ∀ path ∈ files.map (·.path), OutputDirs.Holds ⟨"/zoo/inc", "/zoo/src"⟩ path := by
  constructor
  · let h : Hierarchy := (oneDog "Zoo::Dog" none).build.toOption.getD ⟨[], [], []⟩
    let b : Bindings := { hierarchy := h }
    have hb : (oneDog "Zoo::Dog" none).build = .ok b.hierarchy := by decide +kernel
    have hrelative : OutputDirs.Relative ⟨"inc", "src"⟩ := by constructor <;> decide
    obtain ⟨files, hfiles, -, -, hinside⟩ := b.stays_inside_iff ⟨"inc", "src"⟩
    refine ⟨b, hb, hrelative, files, hfiles, (hinside hrelative).mpr ?_⟩
    decide +kernel
  · let h : Hierarchy :=
      (oneDog "Zoo::Dog" (some "/zoo/inc/Dog.h")).build.toOption.getD ⟨[], [], []⟩
    let b : Bindings := { hierarchy := h }
    have hb : (oneDog "Zoo::Dog" (some "/zoo/inc/Dog.h")).build = .ok b.hierarchy := by
      decide +kernel
    have hconfined : b.Confined ⟨"/zoo/inc", "/zoo/src"⟩ := by constructor <;> decide +kernel
    obtain ⟨files, hfiles, -, hinside, -⟩ := b.stays_inside_iff ⟨"/zoo/inc", "/zoo/src"⟩
    exact ⟨b, hb, hconfined, files, hfiles, hinside.mpr hconfined⟩

/-- **A header that leaves the directories:** the name of the class starts with colons, so the path
that is made from it starts with a slash. -/
theorem oneDog_outside : ∃ b : Bindings, (oneDog "::Dog" none).build = .ok b.hierarchy ∧
    ∃ paths kept, (b.writeAll OutputFile.keep ⟨"inc", "src"⟩).run.run {} = (.ok paths, kept) ∧
      paths = ["/Dog.h", "inc/cfish_platform.h", "inc/zoo_parcel.h", "src/zoo_parcel.c",
        "inc/callbacks.h"] ∧
      ¬ OutputDirs.Holds ⟨"inc", "src"⟩ "/Dog.h" := by
  let h : Hierarchy := (oneDog "::Dog" none).build.toOption.getD ⟨[], [], []⟩
  let b : Bindings := { hierarchy := h }
  have hb : (oneDog "::Dog" none).build = .ok b.hierarchy := by decide +kernel
  obtain ⟨files, hfiles⟩ := b.exists_outputs ⟨"inc", "src"⟩
  have hpaths := Bindings.map_path_outputs hfiles
  have hclasses : b.classHeaderPaths = ["/Dog.h"] := by decide +kernel
  have hparcels : b.hierarchy.parcels.flatMap (Bindings.parcelPaths ⟨"inc", "src"⟩) =
      ["inc/zoo_parcel.h", "src/zoo_parcel.c"] := by decide +kernel
  rw [hclasses, hparcels] at hpaths
  exact ⟨b, hb, _, _, Bindings.run_writeAll_keep hfiles, hpaths, by decide⟩

end ClassTables
