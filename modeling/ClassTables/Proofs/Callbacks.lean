import ClassTables.Output.Basic
import ClassTables.Proofs.ClassContents
import ClassTables.Proofs.DirectCalls
/-!
# Callbacks of host languages

The row of a novel method names the callback that a host language may set, unless the method is
final.  The header of callbacks defines such names away.  Two flags decide what is there: a source is
written for the parcels that are not included, and it names the callbacks of all their classes; the
header defines those of the classes that are not included, whatever their parcels are.

Main statement: `callbacks_closed`.  Where the flags of classes and parcels agree, the names in the
sources are those in the header.  Where they do not, there may be names on either side that the other
does not have (`mixedFlags_not_closed`).
-/

namespace ClassTables

/-! ## Callbacks of a class -/

namespace Class

/-- The class introduces a method that a host language may override, through this symbol. -/
def HasCallback (c : Class) (s : String) : Prop :=
  ∃ m ∈ c.methods, c.kindOf m = .novel ∧ m.isFinal = false ∧ m.overrideSym = s

instance (c : Class) (s : String) : Decidable (c.HasCallback s) :=
  inferInstanceAs (Decidable (∃ m ∈ c.methods, _))

variable {c : Class} {s : String}

/-- The methods that may be overridden are found among those that the class declares. -/
theorem exists_overridable_iff (hd : c.Distinct) :
    (∃ b ∈ c.overridable, b.method.overrideSym = s) ↔ c.HasCallback s := by
  have hnovel : ∀ m, m ∈ c.freshMethods.filter (·.isNovel) ↔ m ∈ c.methods ∧ c.kindOf m = .novel := by
    intro m
    rw [freshMethods, ← filter_novel hd, List.mem_filter, beq_iff_eq]
  constructor
  · rintro ⟨b, hb, hs⟩
    obtain ⟨hfresh, hkeep⟩ := List.mem_filter.mp hb
    obtain ⟨m, hm, rfl⟩ := List.mem_map.mp hfresh
    rw [Bool.and_eq_true, Bool.not_eq_true'] at hkeep
    obtain ⟨hmem, hk⟩ := (hnovel m).mp (List.mem_filter.mpr ⟨hm, hkeep.1⟩)
    exact ⟨m, hmem, hk, hkeep.2, hs⟩
  · rintro ⟨m, hm, hk, hfinal, hs⟩
    obtain ⟨hfresh, hnov⟩ := List.mem_filter.mp ((hnovel m).mpr ⟨hm, hk⟩)
    exact ⟨⟨m, c⟩, List.mem_filter.mpr ⟨List.mem_map_of_mem hfresh, by simp [hnov, hfinal]⟩, hs⟩

/-- A reference to a callback is not `NULL`, and it is to one symbol. -/
theorem callbackRef_eq_iff {b : MethodBinding} :
    b.callbackRef = "(cfish_method_t)" ++ s ↔
      b.method.isFinal = false ∧ b.method.overrideSym = s := by
  unfold MethodBinding.callbackRef
  cases hfinal : b.method.isFinal with
  | true =>
      have hne : "NULL" ≠ "(cfish_method_t)" ++ s := by
        intro h
        have hlist := congrArg String.toList h
        rw [String.toList_append] at hlist
        cases hlist
      simp [hne]
  | false => simp [String.append_right_inj]

/-- **The rows for novel methods name the callbacks of the class.** -/
theorem exists_callback_row_iff (hinert : c.inert = false) :
    (∃ row ∈ c.dataFragment.rowsOf (c.arrayName .novel),
      row.field? "callback_func" = some ("(cfish_method_t)" ++ s)) ↔ c.HasCallback s := by
  have hfield : ∀ b : MethodBinding, (rowOf b .novel).field? "callback_func" = some b.callbackRef :=
    fun _ => rfl
  rw [c.rowsOf_dataFragment hinert, c.bindingsOfKind_eq, List.map_map]
  constructor
  · rintro ⟨row, hrow, hs⟩
    obtain ⟨m, hm, rfl⟩ := List.mem_map.mp hrow
    obtain ⟨hm, hk⟩ := List.mem_filter.mp hm
    rw [Function.comp_apply, hfield, Option.some.injEq, callbackRef_eq_iff] at hs
    exact ⟨m, hm, beq_iff_eq.mp hk, hs⟩
  · rintro ⟨m, hm, hk, hs⟩
    have hmem : m ∈ c.methods.filter (c.kindOf · == .novel) :=
      List.mem_filter.mpr ⟨hm, beq_iff_eq.mpr hk⟩
    refine ⟨_, List.mem_map_of_mem hmem, ?_⟩
    rw [Function.comp_apply, hfield, callbackRef_eq_iff.mpr hs]

end Class

/-! ## The header and the sources -/

namespace Bindings

variable {b : Bindings} {s : String}

/-- The header of callbacks defines the symbol away. -/
def DefinesAway (b : Bindings) (s : String) : Prop := ⟨s, some "NULL"⟩ ∈ b.callbacksHeader.defines

/-- The source of a parcel that is not included has an array of novel methods with a row that names
the symbol as a callback. -/
def NamesCallback (b : Bindings) (s : String) : Prop :=
  ∃ p ∈ b.hierarchy.parcels, p.included = false ∧ ∃ a ∈ (b.parcelSource p).arrays,
    a.type = "cfish_NovelMethSpec" ∧ ∃ row ∈ a.rows,
      row.field? "callback_func" = some ("(cfish_method_t)" ++ s)

/-- The macros of a header: its guard, and those of its body. -/
theorem defines_guarded (f : Frame) (guard : String) (body : Fragment) :
    (f.guarded guard body).defines = ⟨guard, some "1"⟩ :: body.defines :=
  collect_guarded passes_define f guard

/-- The macros of the header: its guard, and the callbacks of the classes that are not included. -/
theorem defines_callbacksHeader (b : Bindings) :
    b.callbacksHeader.defines = ⟨callbacksGuard, some "1"⟩ ::
      (b.hierarchy.classes.filter (!·.included)).flatMap fun c => c.callbackDecs.defines := by
  have hincludes : Fragment.defines
      ((Hierarchy.headersOf b.hierarchy.classes).map .includeOwn) = [] :=
    collect_map_eq_nil _ fun _ => rfl
  have hbody : b.hierarchy.callbacksBody.defines =
      (b.hierarchy.classes.filter (!·.included)).flatMap fun c => c.callbackDecs.defines := by
    unfold Hierarchy.callbacksBody
    simp [hincludes, collect_flatMap, collect_cons, Item.leaves, List.filterMap_cons, Item.define?]
  rw [callbacksHeader, defines_guarded, hbody]

/-- **The header defines away what classes that are not included introduce.** -/
theorem definesAway_iff (hd : ∀ c ∈ b.hierarchy.classes, c.Distinct) :
    b.DefinesAway s ↔ ∃ c ∈ b.hierarchy.liveClasses, c.included = false ∧ c.HasCallback s := by
  have hdecs : ∀ c : Class, c.callbackDecs.defines =
      if c.inert then [] else c.overridable.map (·.overrideNull) := by
    intro c
    unfold Class.callbackDecs
    split
    · rfl
    · exact collect_map _ fun _ => rfl
  have hguard : (⟨s, some "NULL"⟩ : Define) ≠ ⟨callbacksGuard, some "1"⟩ := by simp
  unfold DefinesAway
  rw [defines_callbacksHeader, List.mem_cons, or_iff_right hguard, List.mem_flatMap]
  constructor
  · rintro ⟨c, hc, hs⟩
    obtain ⟨hmem, hincluded⟩ := List.mem_filter.mp hc
    rw [hdecs] at hs
    cases hinert : c.inert with
    | true => simp [hinert] at hs
    | false =>
        rw [if_neg (by simp [hinert])] at hs
        obtain ⟨m, hm, heq⟩ := List.mem_map.mp hs
        have hsym : m.method.overrideSym = s := congrArg Define.name heq
        exact ⟨c, List.mem_filter.mpr ⟨hmem, by simp [hinert]⟩, by simpa using hincluded,
          (Class.exists_overridable_iff (hd c hmem)).mp ⟨m, hm, hsym⟩⟩
  · rintro ⟨c, hc, hincluded, hs⟩
    have hmem := mem_classes_of_live hc
    obtain ⟨m, hm, rfl⟩ := (Class.exists_overridable_iff (hd c hmem)).mpr hs
    refine ⟨c, List.mem_filter.mpr ⟨hmem, by simp [hincluded]⟩, ?_⟩
    rw [hdecs, if_neg (by simp [not_inert_of_live hc])]
    exact List.mem_map_of_mem hm

/-- A source names what the classes of its parcel introduce. -/
theorem exists_callback_array_iff {p : Parcel} :
    (∃ a ∈ (b.parcelSource p).arrays, a.type = "cfish_NovelMethSpec" ∧ ∃ row ∈ a.rows,
      row.field? "callback_func" = some ("(cfish_method_t)" ++ s)) ↔
        ∃ c ∈ b.hierarchy.dynamicClassesOf p, c.HasCallback s := by
  have hrows : ∀ c : Class, c.inert = false →
      c.dataFragment.rowsOf (c.arrayName .novel) = (c.arrayDef .novel).rows := fun c hinert =>
    c.rowsOf_dataFragment hinert .novel
  rw [arrays_parcelSource]
  constructor
  · rintro ⟨a, ha, htype, row, hrow, hs⟩
    rcases List.mem_append.mp ha with ha | ha
    · obtain ⟨c, hc, ha⟩ := List.mem_flatMap.mp ha
      obtain ⟨hinert, k, -, rfl⟩ := c.mem_arrays_dataFragment.mp ha
      have hk : ∀ k, Class.rowType k = "cfish_NovelMethSpec" → k = .novel := by
        intro k
        cases k <;> decide
      obtain rfl := hk k htype
      refine ⟨c, List.mem_filter.mpr ⟨hc, by simp [hinert]⟩, ?_⟩
      exact (Class.exists_callback_row_iff hinert).mp ⟨row, (hrows c hinert).symm ▸ hrow, hs⟩
    · -- the table of the classes is of another type
      have htable : a = b.hierarchy.classSpecs p := by
        by_cases hp : b.hierarchy.dynamicClassesOf p = []
        · simp [hp] at ha
        · simpa [hp] using ha
      have hne : "cfish_ClassSpec" ≠ "cfish_NovelMethSpec" := by decide
      rw [htable] at htype
      exact absurd htype hne
  · rintro ⟨c, hc, hs⟩
    obtain ⟨hmem, hinert⟩ := List.mem_filter.mp hc
    rw [Bool.not_eq_true'] at hinert
    obtain ⟨row, hrow, hfield⟩ := (Class.exists_callback_row_iff hinert).mpr hs
    rw [hrows c hinert] at hrow
    have hk : c.bindingsOfKind .novel ≠ [] := by
      intro hnil
      simp [Class.arrayDef, hnil] at hrow
    have ha := c.mem_arrays_dataFragment.mpr ⟨hinert, .novel, hk, rfl⟩
    exact ⟨_, List.mem_append_left _ (List.mem_flatMap.mpr ⟨c, hmem, ha⟩), rfl, row, hrow, hfield⟩

/-- **The sources name what classes of parcels that are not included introduce.** -/
theorem namesCallback_iff {d : Declarations} (hb : d.build = .ok b.hierarchy) :
    b.NamesCallback s ↔
      ∃ c ∈ b.hierarchy.liveClasses, c.parcel.included = false ∧ c.HasCallback s := by
  obtain ⟨defs, hres, -, -⟩ := exists_resolved_of_build hb
  unfold NamesCallback
  constructor
  · rintro ⟨p, hp, hincluded, hnames⟩
    obtain ⟨c, hc, hs⟩ := exists_callback_array_iff.mp hnames
    obtain ⟨hmem, hinert⟩ := List.mem_filter.mp hc
    obtain ⟨hmem, hname⟩ := List.mem_filter.mp hmem
    have hparcel : c.parcel = p :=
      eq_of_name_eq hres.parcelNames (parcel_mem_of_build hb hmem) hp (beq_iff_eq.mp hname)
    exact ⟨c, List.mem_filter.mpr ⟨hmem, hinert⟩, hparcel.symm ▸ hincluded, hs⟩
  · rintro ⟨c, hc, hincluded, hs⟩
    obtain ⟨hmem, hinert⟩ := List.mem_filter.mp hc
    refine ⟨c.parcel, parcel_mem_of_build hb hmem, hincluded, exists_callback_array_iff.mpr ⟨c, ?_, hs⟩⟩
    exact List.mem_filter.mpr ⟨List.mem_filter.mpr ⟨hmem, beq_self_eq_true _⟩, hinert⟩

/-- The header of callbacks is among the files, and so are the sources of parcels that are not
included. -/
theorem mem_outputs {dirs : OutputDirs} {files : List OutputFile}
    (hfiles : b.outputs dirs = .ok files) :
    ⟨dirs.header callbacksName, b.callbacksHeader.render⟩ ∈ files ∧
      ∀ p ∈ b.hierarchy.parcels, p.included = false →
        ⟨dirs.source p.sourceName, (b.parcelSource p).render⟩ ∈ files := by
  unfold outputs at hfiles
  obtain ⟨classHeaders, -, hfiles⟩ := bind_eq_ok_iff.mp hfiles
  obtain rfl := Except.ok.inj hfiles
  constructor
  · exact List.mem_append_right _ List.mem_cons_self
  · intro p hp hincluded
    have hsource : ⟨dirs.source p.sourceName, (b.parcelSource p).render⟩ ∈ b.parcelFiles dirs p := by
      unfold parcelFiles
      simp [hincluded]
    exact List.mem_append_left _
      (List.mem_append_right _ (List.mem_flatMap.mpr ⟨p, hp, hsource⟩))

theorem includeOwn_callbacks_mem (b : Bindings) (p : Parcel) :
    .includeOwn callbacksName ∈ b.parcelSource p := by
  unfold parcelSource Frame.wrap Hierarchy.parcelSourceBody Hierarchy.sourceIncludes
  simp

/-- **Callbacks are closed where the flags of classes and parcels agree.**  The sources are those of
the parcels that are not included, and each of them includes the header of callbacks.  The header
defines away what classes that are not included introduce, and the sources name what classes of
parcels that are not included introduce.  So if a class that introduces something is included exactly
when its parcel is, the sources name what the header defines. -/
theorem callbacks_closed {d : Declarations} (hb : d.build = .ok b.hierarchy) :
    (∀ dirs files, b.outputs dirs = .ok files →
      ⟨dirs.header callbacksName, b.callbacksHeader.render⟩ ∈ files ∧
        ∀ p ∈ b.hierarchy.parcels, p.included = false →
          ⟨dirs.source p.sourceName, (b.parcelSource p).render⟩ ∈ files) ∧
    (∀ p, .includeOwn callbacksName ∈ b.parcelSource p) ∧
    (∀ s, b.DefinesAway s ↔
      ∃ c ∈ b.hierarchy.liveClasses, c.included = false ∧ c.HasCallback s) ∧
    (∀ s, b.NamesCallback s ↔
      ∃ c ∈ b.hierarchy.liveClasses, c.parcel.included = false ∧ c.HasCallback s) ∧
    ((∀ c ∈ b.hierarchy.liveClasses, (∃ s, c.HasCallback s) → c.included = c.parcel.included) →
      ∀ s, b.NamesCallback s ↔ b.DefinesAway s) := by
  have hdefines : ∀ s, b.DefinesAway s ↔
      ∃ c ∈ b.hierarchy.liveClasses, c.included = false ∧ c.HasCallback s := fun _ =>
    definesAway_iff fun _ hc => (distinct_of_build hb hc).1
  have hnames : ∀ s, b.NamesCallback s ↔
      ∃ c ∈ b.hierarchy.liveClasses, c.parcel.included = false ∧ c.HasCallback s := fun _ =>
    namesCallback_iff hb
  refine ⟨fun _ _ => mem_outputs, includeOwn_callbacks_mem b, hdefines, hnames, fun hflags s => ?_⟩
  rw [hnames, hdefines]
  refine exists_congr fun c => and_congr_right fun hc => and_congr_left fun hs => ?_
  rw [hflags c hc ⟨s, hs⟩]

end Bindings

/-! ## Flags that agree, and flags that do not -/

/-- The kennel on an object system that another project defines. -/
def kennelOnIncluded : Declarations :=
  { parcels := kennel.parcels.map fun p => { p with included := p.name == "Clownfish" }
    classes := kennel.classes.map fun c => { c with included := c.parcel == "Clownfish" } }

/-- `Fetch` is named and defined, `Destroy` of the object system is neither. -/
theorem kennelOnIncluded_callbacks : ∃ b : Bindings,
    kennelOnIncluded.build = .ok b.hierarchy ∧ (∀ s, b.NamesCallback s ↔ b.DefinesAway s) ∧
      b.NamesCallback "animal_Dog_Fetch_OVERRIDE" ∧
        ¬ b.NamesCallback "cfish_Obj_Destroy_OVERRIDE" := by
  let h : Hierarchy := kennelOnIncluded.build.toOption.getD ⟨[], [], []⟩
  let b : Bindings := { hierarchy := h }
  have hb : kennelOnIncluded.build = .ok b.hierarchy := by decide +kernel
  have hflags : ∀ c ∈ b.hierarchy.liveClasses, c.included = c.parcel.included := by decide +kernel
  have hfetch : ∃ c ∈ b.hierarchy.liveClasses, c.parcel.included = false ∧
      c.HasCallback "animal_Dog_Fetch_OVERRIDE" := by decide +kernel
  have hdestroy : ¬ ∃ c ∈ b.hierarchy.liveClasses, c.parcel.included = false ∧
      c.HasCallback "cfish_Obj_Destroy_OVERRIDE" := by decide +kernel
  obtain ⟨-, -, -, hnames, hclosed⟩ := Bindings.callbacks_closed hb
  exact ⟨b, hb, hclosed fun c hc _ => hflags c hc, (hnames _).mpr hfetch,
    fun hn => hdestroy ((hnames _).mp hn)⟩

/-- An included class in a parcel that is not, and the other way round. -/
def mixedFlags : Declarations :=
  { parcels := [{ name := "App" }, { name := "Lib", included := true }]
    classes :=
      [{ name := "App::Draft", parcel := "App", included := true, methods := [{ name := "Save" }] },
       { name := "Lib::Patch", parcel := "Lib", methods := [{ name := "Apply" }] }] }

/-- **Where flags do not agree, each side has what the other has not:** the source of `App` names the
callback of `Draft`, which the header does not define; it defines that of `Patch`, which no source
names. -/
theorem mixedFlags_not_closed : ∃ b : Bindings, mixedFlags.build = .ok b.hierarchy ∧
    (b.NamesCallback "app_Draft_Save_OVERRIDE" ∧ ¬ b.DefinesAway "app_Draft_Save_OVERRIDE") ∧
      b.DefinesAway "lib_Patch_Apply_OVERRIDE" ∧ ¬ b.NamesCallback "lib_Patch_Apply_OVERRIDE" := by
  let h : Hierarchy := mixedFlags.build.toOption.getD ⟨[], [], []⟩
  let b : Bindings := { hierarchy := h }
  have hb : mixedFlags.build = .ok b.hierarchy := by decide +kernel
  have hd : ∀ c ∈ b.hierarchy.classes, c.Distinct := fun c hc => (distinct_of_build hb hc).1
  refine ⟨b, hb, ?_⟩
  rw [Bindings.namesCallback_iff hb, Bindings.namesCallback_iff hb, Bindings.definesAway_iff hd,
    Bindings.definesAway_iff hd]
  decide +kernel

end ClassTables
