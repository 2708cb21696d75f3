import ClassTables.Proofs.Callbacks
import ClassTables.Proofs.OutputPlaces
import ClassTables.Proofs.ParcelOrder
/-!
# Included headers

Five kinds of files include headers.  The inclusions of each are listed first: a class header includes
that of its parcel and those of the parents of its classes, the header of a parcel those of its
prerequisites, a source those of its classes, and so on.

Main statement: `inclusions_found`.  Every header that is included in some generated file is generated
too, or declares nothing but classes of other projects, or is one of a few that come from elsewhere.
-/

namespace ClassTables

/-! ## Reading inclusions -/

/-- The path on an include line. -/
def Inclusion.path : Inclusion → String
  | .quoted path => path
  | .angled path => path

def Item.inclusion? : Item → Option Inclusion
  | .inclusion i => some i
  | _ => none

/-- The include lines, under whatever condition they stand. -/
abbrev Fragment.inclusions (f : Fragment) : List Inclusion := f.collect Item.inclusion?

theorem passes_inclusion : PassesFrames Item.inclusion? := ⟨fun _ => rfl, fun _ => rfl, rfl⟩

theorem passesSymbols_inclusion : PassesSymbols Item.inclusion? :=
  ⟨⟨passes_inclusion, fun _ => rfl, fun _ => rfl, fun _ => rfl, fun _ _ => rfl⟩,
    fun _ _ => rfl, fun _ => rfl⟩

@[simp] theorem inclusions_titled {comment : String} {body : Fragment} :
    (titled comment body).inclusions = body.inclusions :=
  collect_titled passes_inclusion

theorem inclusions_wrap (f : Frame) (body : Fragment) :
    (f.wrap body).inclusions = body.inclusions :=
  collect_wrap passes_inclusion f

theorem inclusions_guarded (f : Frame) (guard : String) (body : Fragment) :
    (f.guarded guard body).inclusions = body.inclusions :=
  collect_guarded passes_inclusion f guard

theorem inclusions_includeOwn (paths : List String) :
    Fragment.inclusions (paths.map .includeOwn) = paths.map .quoted :=
  collect_map _ fun _ => rfl

/-! ## Classes -/

namespace Class

variable (c : Class)

theorem inclusions_parentInclude :
    c.parentInclude.inclusions = (c.parent?.map fun p => Inclusion.quoted p.header).toList := by
  unfold parentInclude
  cases c.parent? <;> rfl

/-- **A class includes the header of its parent,** unless it is inert. -/
theorem inclusions_headerFragment : c.headerFragment.inclusions =
    if c.inert then [] else (c.parent?.map fun p => Inclusion.quoted p.header).toList := by
  have hvars : c.inertVarDecs.collect Item.inclusion? = [] := collect_map_eq_nil _ fun _ => rfl
  have hoffsets : Fragment.collect Item.inclusion? (c.bindings.map fun b => .var b.offsetDec) = [] :=
    collect_map_eq_nil _ fun _ => rfl
  have hown : ∀ v, Fragment.collect Item.inclusion? [.var v] = [] := fun _ => rfl
  refine (c.collect_headerFragment passesSymbols_inclusion).trans ?_
  rw [hvars, hoffsets, hown, ← c.inclusions_parentInclude]
  simp only [List.append_nil]

theorem inclusions_dataFragment : c.dataFragment.inclusions = [] := by
  have hoffsets : c.offsetVars.inclusions = [] := collect_map_eq_nil _ fun _ => rfl
  have hstubs : c.abstractDefs.inclusions = [] := collect_flatMap_eq_nil _ fun _ => rfl
  have harrays : c.methodArrays.inclusions = [] := c.collect_methodArrays (fun _ => rfl) rfl
  unfold dataFragment
  split
  · rfl
  · simp [hoffsets, hstubs, harrays, collect_cons, Item.leaves, Item.inclusion?]

end Class

/-! ## Files -/

namespace Platform

theorem inclusions_defineOrFlag (name value : String) :
    Fragment.inclusions [defineOrFlag name value] = [] := by
  unfold defineOrFlag
  split <;> rfl

theorem inclusions_boolSection (p : Platform) : Fragment.inclusions [p.boolSection] =
    if p.hasStdbool then [.angled "stdbool.h"] else [] := by
  unfold boolSection
  split <;> rfl

theorem inclusions_intSection (p : Platform) : Fragment.inclusions [p.intSection] =
    if p.hasStdint then [.angled "stdint.h"] else [] := by
  have hfallback : p.intFallback.inclusions = [] := collect_flatMap_eq_nil _ fun _ => rfl
  unfold intSection
  split
  · rfl
  · simp [hfallback]

/-- **The header of the platform includes headers of the C library.** -/
theorem inclusions_headerBody (p : Platform) : p.headerBody.inclusions =
    (if p.hasStdbool then [.angled "stdbool.h"] else []) ++
      (if p.hasStdint then [.angled "stdint.h"] else []) ++
      match p.allocaSource with
      | .allocaH => [.angled "alloca.h"]
      | .mallocH => [.angled "malloc.h"]
      | .stdlibH => [.angled "stdlib.h"]
      | .nowhere => [] := by
  have hflags : p.flagItems.inclusions = [] := collect_map_eq_nil _ fun _ => rfl
  have hkeywords : p.keywords.inclusions = [] := by
    have hsplit : p.keywords = [defineOrFlag "CFISH_INLINE" p.inlineKeyword] ++
        [defineOrFlag "CFISH_EXPORT" p.exportMacro] ++ [defineOrFlag "CFISH_IMPORT" p.importMacro] :=
      rfl
    simp only [hsplit, collect_append, inclusions_defineOrFlag, List.append_nil]
  have hsizes : p.sizes.inclusions = [] := rfl
  have hmacros : p.macros.inclusions = [] := by
    unfold macros
    split <;> rfl
  have hblank : Fragment.inclusions [.blank] = [] := rfl
  have hsections : Fragment.inclusions [.blank, p.boolSection, .blank, p.intSection, .blank] =
      (if p.hasStdbool then [.angled "stdbool.h"] else []) ++
        if p.hasStdint then [.angled "stdint.h"] else [] := by
    have hsplit : [Item.blank, p.boolSection, .blank, p.intSection, .blank] =
        [.blank] ++ [p.boolSection] ++ [.blank] ++ [p.intSection] ++ [.blank] := rfl
    simp only [hsplit, collect_append, hblank, inclusions_boolSection, inclusions_intSection,
      List.nil_append, List.append_nil]
  have halloca : p.allocaSection.inclusions = match p.allocaSource with
      | .allocaH => [.angled "alloca.h"]
      | .mallocH => [.angled "malloc.h"]
      | .stdlibH => [.angled "stdlib.h"]
      | .nowhere => [] := by
    unfold allocaSection
    cases p.allocaSource <;> rfl
  unfold headerBody
  simp only [collect_append, hflags, hkeywords, hsizes, hmacros, hblank, hsections, halloca,
    List.nil_append, List.append_nil]

end Platform

namespace Hierarchy

variable (h : Hierarchy) (p : Parcel)

theorem inclusions_parcelIncludes : (h.parcelIncludes p).inclusions =
    if p.isCore then
      [.angled "stdarg.h", .angled "stddef.h", .quoted platformHeaderName,
        .quoted "cfish_hostdefs.h"]
    else (h.prereqsOf p).map fun q => .angled q.headerName := by
  unfold parcelIncludes
  split
  · rfl
  · exact collect_map _ fun _ => rfl

/-- **The header of a parcel includes what it relies on.** -/
theorem inclusions_parcelHeaderBody :
    (h.parcelHeaderBody p).inclusions = (h.parcelIncludes p).inclusions := by
  have hvisibility : Fragment.inclusions [.blank, visibility p, .blank] = [] := rfl
  have htypes : (h.structTypes p).inclusions = [] := by
    have hmap : Fragment.inclusions
        ((h.dynamicClassesOf p).map fun c => .typedefStruct c.fullStructSym c.fullStructSym) = [] :=
      collect_map_eq_nil _ fun _ => rfl
    unfold structTypes
    split
    · rfl
    · exact (collect_append _ _).trans (congrArg (· ++ _) hmap)
  have hcore : (coreSection p).inclusions = [] := by
    unfold coreSection
    split <;> rfl
  have hboot : (bootDeclarations p).inclusions = [] := rfl
  unfold parcelHeaderBody
  simp only [collect_append, hvisibility, htypes, hcore, hboot, List.append_nil]

/-- **A source includes** headers of the C library, that of its parcel, that of the callbacks, those
of the object system and those of its classes. -/
theorem inclusions_parcelSourceBody : (h.parcelSourceBody p).inclusions =
    [.angled "stdio.h", .angled "stdlib.h", .quoted p.headerName, .quoted callbacksName] ++
      systemHeaders.map .quoted ++ (headersOf (h.classesOf p)).map .quoted := by
  have hflags : (h.privacyFlags p).inclusions = [] := by
    have hmap : Fragment.inclusions ((h.classesOf p).map fun c => .flag c.privacySymbol) = [] :=
      collect_map_eq_nil _ fun _ => rfl
    exact (collect_append _ _).trans (congrArg (· ++ _) hmap)
  have hlibrary : Fragment.inclusions [.includeSystem "stdio.h", .includeSystem "stdlib.h", .blank,
      .includeOwn p.headerName, .includeOwn callbacksName] =
        [.angled "stdio.h", .angled "stdlib.h", .quoted p.headerName, .quoted callbacksName] := rfl
  have hdata : Fragment.inclusions ((h.classesOf p).flatMap (·.dataFragment)) = [] :=
    collect_flatMap_eq_nil _ Class.inclusions_dataFragment
  have htable : (h.classTable p).inclusions = [] := by
    rw [classTable_eq]
    split <;> rfl
  have hboot : (h.bootDefinitions p).inclusions = [] := rfl
  have hblank : Fragment.inclusions [.blank] = [] := rfl
  unfold parcelSourceBody sourceIncludes
  simp only [collect_append, hflags, hblank, hlibrary, inclusions_includeOwn, hdata, htable, hboot,
    List.nil_append, List.append_nil]

/-- **The header of the callbacks includes all class headers.** -/
theorem inclusions_callbacksBody :
    h.callbacksBody.inclusions = (headersOf h.classes).map .quoted := by
  have hdecs : Fragment.inclusions
      ((h.classes.filter (!·.included)).flatMap (·.callbackDecs)) = [] := by
    apply collect_flatMap_eq_nil
    intro c
    unfold Class.callbackDecs
    split
    · rfl
    · exact collect_map_eq_nil _ fun _ => rfl
  have hblank : Fragment.inclusions [.blank] = [] := rfl
  unfold callbacksBody
  simp only [collect_append, inclusions_includeOwn, hblank, hdecs, List.append_nil]

/-- **A class header includes that of the parcel of its first class, and those of the parents.** -/
theorem inclusions_classHeaderBody (first : Class) (rest : List Class) :
    (classHeaderBody first rest).inclusions = .quoted first.parcel.headerName ::
      (first :: rest).flatMap fun c => c.headerFragment.inclusions := by
  have hparcel : Fragment.inclusions [.includeOwn first.parcel.headerName, .blank] =
      [.quoted first.parcel.headerName] := rfl
  unfold classHeaderBody
  simp only [collect_append, hparcel, collect_flatMap, List.singleton_append]

end Hierarchy

/-! ## Where headers are found -/

/-- Headers of the C library. -/
def libraryHeaders : List String :=
  ["stdarg.h", "stddef.h", "stdio.h", "stdlib.h", "stdbool.h", "stdint.h", "alloca.h", "malloc.h"]

/-- Headers that come from elsewhere: those of the C library, that of the host language, and those
that the object system has besides its classes. -/
def externalHeaders : List String :=
  libraryHeaders ++ ["cfish_hostdefs.h"] ++ Hierarchy.systemHeaders

/-- Where a header that is named in an include line is found, when the given paths are written. -/
inductive Found (b : Bindings) (dirs : OutputDirs) (paths : List String) (name : String) : Prop
  /-- In the directory of headers. -/
  | written (h : dirs.header name ∈ paths)
  /-- Wherever the classes that share it come from, none of which is of this project. -/
  | elsewhere (c : Class) (hc : c ∈ b.hierarchy.classes) (hname : c.header = name)
      (h : ∀ e ∈ b.hierarchy.classes, e.header = name → e.included = true)
  | external (h : name ∈ externalHeaders)

namespace Bindings

variable {b : Bindings} {dirs : OutputDirs} {files : List OutputFile} {p : Parcel} {c : Class}

section Names

variable (hfiles : b.outputs dirs = .ok files)
include hfiles

/-- The header of a class is written if one of the classes that share it is of this project. -/
theorem found_class (hc : c ∈ b.hierarchy.classes) :
    Found b dirs (files.map (·.path)) c.header := by
  by_cases hincluded : ∀ e ∈ b.hierarchy.classes, e.header = c.header → e.included = true
  · exact .elsewhere c hc rfl hincluded
  · push Not at hincluded
    obtain ⟨e, he, hheader, hown⟩ := hincluded
    apply Found.written
    rw [mem_paths_iff hfiles, ← hheader]
    refine .inl ⟨e.header, ?_, rfl⟩
    rw [classHeaderPaths, Hierarchy.headersOf, List.mem_eraseDups]
    exact List.mem_map_of_mem (List.mem_filter.mpr ⟨he, by simpa using hown⟩)

theorem found_parcel (hp : p ∈ b.hierarchy.parcels) :
    Found b dirs (files.map (·.path)) p.headerName :=
  .written ((mem_paths_iff hfiles).mpr (.inr (.inr (.inl ⟨p, hp, mem_parcelPaths.mpr (.inl rfl)⟩))))

theorem found_platform : Found b dirs (files.map (·.path)) platformHeaderName :=
  .written ((mem_paths_iff hfiles).mpr (.inr (.inl rfl)))

theorem found_callbacks : Found b dirs (files.map (·.path)) callbacksName :=
  .written ((mem_paths_iff hfiles).mpr (.inr (.inr (.inr rfl))))

end Names

/-! ## The inclusions of each file -/

/-- Every header that a fragment includes is found. -/
def FindsAll (b : Bindings) (dirs : OutputDirs) (paths : List String) (f : Fragment) : Prop :=
  ∀ i ∈ f.inclusions, Found b dirs paths i.path

theorem mem_libraryHeaders_of_platform {i : Inclusion} (hi : i ∈ b.platform.headerBody.inclusions) :
    i.path ∈ libraryHeaders := by
  revert i
  rw [Platform.inclusions_headerBody]
  cases b.platform.hasStdbool <;> cases b.platform.hasStdint <;> cases b.platform.allocaSource <;>
    decide

theorem findsAll_platformHeader {paths : List String} : b.FindsAll dirs paths b.platformHeader := by
  intro i hi
  unfold platformHeader at hi
  rw [inclusions_guarded] at hi
  exact .external (List.mem_append_left _ (List.mem_append_left _ (mem_libraryHeaders_of_platform hi)))

section Files

variable (hfiles : b.outputs dirs = .ok files)
include hfiles

theorem findsAll_parcelHeader : b.FindsAll dirs (files.map (·.path)) (b.parcelHeader p) := by
  intro i hi
  unfold parcelHeader at hi
  rw [inclusions_guarded, Hierarchy.inclusions_parcelHeaderBody,
    Hierarchy.inclusions_parcelIncludes] at hi
  split at hi
  · simp only [List.mem_cons, List.not_mem_nil, or_false] at hi
    rcases hi with rfl | rfl | rfl | rfl
    · exact .external (by decide)
    · exact .external (by decide)
    · exact found_platform hfiles
    · exact .external (by decide)
  · obtain ⟨q, hq, rfl⟩ := List.mem_map.mp hi
    exact found_parcel hfiles (prereqsOf_subset hq)

theorem findsAll_headers {classes : List Class} (hclasses : ∀ c ∈ classes, c ∈ b.hierarchy.classes) :
    ∀ name ∈ Hierarchy.headersOf classes, Found b dirs (files.map (·.path)) name := by
  intro name hname
  rw [Hierarchy.headersOf, List.mem_eraseDups] at hname
  obtain ⟨c, hc, rfl⟩ := List.mem_map.mp hname
  exact found_class hfiles (hclasses c hc)

theorem findsAll_parcelSource (hp : p ∈ b.hierarchy.parcels) :
    b.FindsAll dirs (files.map (·.path)) (b.parcelSource p) := by
  intro i hi
  unfold parcelSource at hi
  rw [inclusions_wrap, Hierarchy.inclusions_parcelSourceBody, List.mem_append, List.mem_append] at hi
  rcases hi with (hi | hi) | hi
  · simp only [List.mem_cons, List.not_mem_nil, or_false] at hi
    rcases hi with rfl | rfl | rfl | rfl
    · exact .external (by decide)
    · exact .external (by decide)
    · exact found_parcel hfiles hp
    · exact found_callbacks hfiles
  · obtain ⟨name, hname, rfl⟩ := List.mem_map.mp hi
    exact .external (List.mem_append_right _ hname)
  · obtain ⟨name, hname, rfl⟩ := List.mem_map.mp hi
    exact findsAll_headers hfiles (fun c hc => (List.mem_filter.mp hc).1) name hname

theorem findsAll_callbacksHeader : b.FindsAll dirs (files.map (·.path)) b.callbacksHeader := by
  intro i hi
  unfold callbacksHeader at hi
  rw [inclusions_guarded, Hierarchy.inclusions_callbacksBody] at hi
  obtain ⟨name, hname, rfl⟩ := List.mem_map.mp hi
  exact findsAll_headers hfiles (fun c hc => hc) name hname

/-- The parents of the classes in a header are classes too, and so is the parcel of the first. -/
theorem findsAll_classHeader {d : Declarations} (hb : d.build = .ok b.hierarchy) {path : String}
    {f : Fragment} (hf : b.classHeader path = .ok f) : b.FindsAll dirs (files.map (·.path)) f := by
  intro i hi
  unfold classHeader at hf
  split at hf
  · cases hf
  · next first rest hin =>
      obtain rfl := Except.ok.inj hf
      have hclasses : ∀ c ∈ first :: rest, c ∈ b.hierarchy.classes := by
        intro c hc
        rw [← hin] at hc
        exact (List.mem_filter.mp hc).1
      rw [inclusions_guarded, Hierarchy.inclusions_classHeaderBody, List.mem_cons] at hi
      rcases hi with rfl | hi
      · exact found_parcel hfiles (parcel_mem_of_build hb (hclasses first List.mem_cons_self))
      · obtain ⟨c, hc, hi⟩ := List.mem_flatMap.mp hi
        rw [Class.inclusions_headerFragment] at hi
        split at hi
        · cases hi
        · rw [Option.mem_toList, Option.map_eq_some_iff] at hi
          obtain ⟨a, ha, rfl⟩ := hi
          exact found_class hfiles (parent_mem_of_build hb (hclasses c hc) ha)

end Files

/-- Whatever file a draft is of, the headers that it includes are found. -/
theorem findsAll_draft {d : Declarations} (hb : d.build = .ok b.hierarchy)
    (hfiles : b.outputs dirs = .ok files) {draft : Draft} (hdraft : .ok draft ∈ b.drafts dirs) :
    b.FindsAll dirs (files.map (·.path)) draft.contents := by
  simp only [drafts, List.mem_append, List.mem_map, List.mem_flatMap, List.mem_singleton] at hdraft
  rcases hdraft with ((⟨path, -, hpath⟩ | hplatform) | ⟨p, hp, hparcel⟩) | hcallbacks
  · rw [classHeaderDraft_eq] at hpath
    cases hf : b.classHeader path with
    | error e =>
        rw [hf] at hpath
        cases hpath
    | ok f =>
        rw [hf] at hpath
        obtain rfl := Except.ok.inj hpath
        exact findsAll_classHeader hfiles hb hf
  · obtain rfl := Except.ok.inj hplatform
    exact findsAll_platformHeader
  · rcases List.mem_cons.mp hparcel with hheader | hsource
    · obtain rfl := Except.ok.inj hheader
      exact findsAll_parcelHeader hfiles
    · split at hsource
      · cases hsource
      · rw [List.mem_singleton, parcelSourceDraft_eq] at hsource
        obtain rfl := Except.ok.inj hsource
        exact findsAll_parcelSource hfiles hp
  · obtain rfl := Except.ok.inj hcallbacks
    exact findsAll_callbacksHeader hfiles

/-- **Every header that is included is found.**  All files are made and written, and each header that
one of them includes is written as well, unless all the classes that share it are of other projects or
it comes from elsewhere anyway. -/
theorem inclusions_found {d : Declarations} {b : Bindings} (hb : d.build = .ok b.hierarchy)
    (dirs : OutputDirs) : ∃ ds : List Draft, b.drafts dirs = ds.map .ok ∧
      (∀ {m : Type → Type} [Monad m] [LawfulMonad m]
        (write : OutputFile → ExceptT BindingError m Unit), b.writeAll write dirs = do
          (ds.map (·.print)).forM write
          return ds.map (·.path)) ∧
      ∀ draft ∈ ds, ∀ i ∈ draft.contents.inclusions, Found b dirs (ds.map (·.path)) i.path := by
  obtain ⟨files, hfiles⟩ := exists_outputs b dirs
  obtain ⟨ds, hds, rfl⟩ := exists_drafts hfiles
  have hpaths : (ds.map (·.print)).map (·.path) = ds.map (·.path) := List.map_map
  refine ⟨ds, hds, ?_, ?_⟩
  · intro m _ _ write
    rw [writeAll_eq hfiles, hpaths]
  · intro draft hdraft
    have hmem : (.ok draft : Except BindingError Draft) ∈ b.drafts dirs := by
      rw [hds]
      exact List.mem_map_of_mem hdraft
    rw [← hpaths]
    exact findsAll_draft hb hfiles hmem

end Bindings

/-! ## A header of another project -/

/-- Animals descend from a class of another project: its header is included, and not written. -/
theorem kennelOnIncluded_found : ∃ b : Bindings, kennelOnIncluded.build = .ok b.hierarchy ∧
    ∃ ds : List Draft, b.drafts ⟨"inc", "src"⟩ = ds.map .ok ∧
      (∀ draft ∈ ds, ∀ i ∈ draft.contents.inclusions,
        Found b ⟨"inc", "src"⟩ (ds.map (·.path)) i.path) ∧
      (∃ draft ∈ ds, draft.path = "inc/Animal.h" ∧
        .quoted "Clownfish/Obj.h" ∈ draft.contents.inclusions) ∧
      "inc/Clownfish/Obj.h" ∉ ds.map (·.path) := by
  let h : Hierarchy := kennelOnIncluded.build.toOption.getD ⟨[], [], []⟩
  let b : Bindings := { hierarchy := h }
  have hb : kennelOnIncluded.build = .ok b.hierarchy := by decide +kernel
  obtain ⟨ds, hds, -, hfound⟩ := Bindings.inclusions_found hb ⟨"inc", "src"⟩
  have hanimal : ((b.drafts ⟨"inc", "src"⟩).filterMap Except.toOption).any (fun d =>
      d.path == "inc/Animal.h" && d.contents.inclusions.contains (.quoted "Clownfish/Obj.h")) := by
    decide +kernel
  have hobj : "inc/Clownfish/Obj.h" ∉
      ((b.drafts ⟨"inc", "src"⟩).filterMap Except.toOption).map (·.path) := by
    decide +kernel
  have hmade : (b.drafts ⟨"inc", "src"⟩).filterMap Except.toOption = ds := by
    rw [hds, List.filterMap_map]
    exact List.filterMap_some
  rw [hmade] at hanimal hobj
  refine ⟨b, hb, ds, hds, hfound, ?_, hobj⟩
  simpa using hanimal

end ClassTables
