import ClassTables.Manifest.Reader
import ClassTables.Proofs.Lists
import ClassTables.Proofs.WrittenDocuments
/-!
# Reading written manifests

Every record of a manifest is written as an object with one member per field, all fields in it.  Such
an object is read field by field (`record?_record`), so a record is read back when the reader of each
field undoes its writer; no default comes in, since nothing is left out, and `null` stands only where
nothing is a value.  The numbers of a target are the one place where a reader takes less than a writer
gives (`Target.Fits`).

Main statement: a manifest whose target fits is read back from its text, and from any text that
spells the same tokens (`Manifest.read_back`).
-/

namespace ClassTables

open Json

/-! ## Documents of values -/

namespace Json

@[simp]
theorem proper_null : Json.null.Proper := by simp [Proper, tokens, Token.Proper]

@[simp]
theorem proper_bool (b : Bool) : (Json.bool b).Proper := by simp [Proper, tokens, Token.Proper]

@[simp]
theorem proper_nat (n : Nat) : (Json.nat n).Proper := by simp [Proper, tokens, Token.Proper]

@[simp]
theorem proper_text (s : String) : (Json.text s).Proper := by
  simp [Json.text, Proper, tokens, Token.Proper]

@[simp]
theorem proper_text? (s : Option String) : (Json.text? s).Proper := by
  cases s <;> simp [Json.text?]

@[simp]
theorem proper_texts (ss : List String) : (Json.texts ss).Proper := by
  refine proper_arr fun j hj => ?_
  obtain ⟨s, -, rfl⟩ := List.mem_map.mp hj
  exact proper_text s

theorem proper_arr_map {α : Type} {write : α → Json} (h : ∀ x, (write x).Proper) (xs : List α) :
    (Json.arr (xs.map write)).Proper := by
  refine proper_arr fun j hj => ?_
  obtain ⟨x, -, rfl⟩ := List.mem_map.mp hj
  exact h x

theorem proper_record {ms : List (String × Json)} (h : ∀ m ∈ ms, m.2.Proper) :
    (Json.record ms).Proper := by
  refine proper_obj fun m hm => ?_
  obtain ⟨n, hn, rfl⟩ := List.mem_map.mp hm
  exact h n hn

/-! ### Reading them -/

@[simp]
theorem readText_text (s : String) : readText (.text s) = some s := rfl

@[simp]
theorem readBool_bool (b : Bool) : readBool (.bool b) = some b := rfl

theorem readU32_nat {n : Nat} (h : n < UInt32.size) : readU32 (.nat n) = some n := by
  simp [readU32, h]

@[simp]
theorem optional_null {α : Type} (read : Json → Option α) : optional read .null = some none := rfl

@[simp]
theorem optional_text? (s : Option String) : optional readText (.text? s) = some s := by
  cases s <;> rfl

theorem readList_map {α : Type} {read : Json → Option α} {write : α → Json}
    (h : ∀ x, read (write x) = some x) (xs : List α) :
    readList read (.arr (xs.map write)) = some xs := by
  induction xs with
  | nil => rfl
  | cons x xs ih =>
      have hrest : (xs.map write).mapM read = some xs := ih
      simp [readList, h, hrest]

@[simp]
theorem readList_texts (ss : List String) : readList readText (.texts ss) = some ss :=
  readList_map readText_text ss

/-! ### Records -/

theorem textKeys?_map (ms : List (String × Json)) :
    textKeys? (ms.map fun m => (some m.1, m.2)) = some ms := by
  induction ms with
  | nil => rfl
  | cons m ms ih =>
      have hrest : (ms.map fun m => (some m.1, m.2)).mapM
          (fun m : Literal × Json => m.1.map fun k => (k, m.2)) = some ms := ih
      simp [textKeys?, hrest]

variable {ms : List (String × Json)} {fields : List String}

theorem fieldsOnce_of_nodup (h : (ms.map Prod.fst).Nodup) : fieldsOnce fields ms := by
  refine List.all_eq_true.mpr fun field _ => decide_eq_true ?_
  calc (ms.filter (·.1 == field)).length
    _ = (ms.map Prod.fst).count field := by
        rw [List.count_eq_countP, List.countP_map, List.countP_eq_length_filter]
        rfl
    _ ≤ 1 := List.nodup_iff_count_le_one.mp h field

/-- The value of each field is the one that was written for it. -/
theorem map_fieldValue (h : (ms.map Prod.fst).Nodup) :
    (ms.map Prod.fst).map (fieldValue ms) = ms.map fun m => some m.2 := by
  rw [List.map_map]
  refine List.map_congr_left fun m hm => ?_
  rw [Function.comp_apply, fieldValue, (find?_key_eq_some_iff h).mpr ⟨hm, rfl⟩]
  rfl

/-- A record with all of its fields, in order and once, as it is read. -/
theorem record?_record (strictness : Strictness) (hfields : ms.map Prod.fst = fields)
    (h : fields.Nodup) :
    record? strictness fields (.record ms) = some (ms.map fun m => some m.2) := by
  subst hfields
  have hknown : (ms.all fun m => (ms.map Prod.fst).contains m.1) = true := by
    refine List.all_eq_true.mpr fun m hm => ?_
    exact List.contains_iff_mem.mpr (List.mem_map_of_mem hm)
  unfold record? Json.record
  dsimp only
  rw [textKeys?_map, Option.bind_eq_bind, Option.bind_some, map_fieldValue h,
    fieldsOnce_of_nodup h, hknown, Bool.or_true]
  rfl

end Json

/-! ## Declarations -/

theorem TypedName.proper_toJson (v : TypedName) : v.toJson.Proper :=
  proper_record (by simp)

theorem TypedName.ofJson?_toJson (v : TypedName) : TypedName.ofJson? v.toJson = some v := by
  rw [ofJson?, toJson, record?_record _ (by rfl) (by decide)]
  simp [required]

theorem ParcelDecl.proper_toJson (d : ParcelDecl) : d.toJson.Proper :=
  proper_record (by simp)

theorem ParcelDecl.ofJson?_toJson (d : ParcelDecl) : ParcelDecl.ofJson? d.toJson = some d := by
  rw [ofJson?, toJson, record?_record _ (by rfl) (by decide)]
  simp [required, withDefault]

theorem FunctionDecl.proper_toJson (f : FunctionDecl) : f.toJson.Proper :=
  proper_record (by simp [proper_arr_map TypedName.proper_toJson])

theorem FunctionDecl.ofJson?_toJson (f : FunctionDecl) : FunctionDecl.ofJson? f.toJson = some f := by
  rw [ofJson?, toJson, record?_record _ (by rfl) (by decide)]
  simp [required, withDefault, readList_map TypedName.ofJson?_toJson]

theorem MethodDecl.proper_toJson (m : MethodDecl) : m.toJson.Proper :=
  proper_record (by simp [proper_arr_map TypedName.proper_toJson])

theorem MethodDecl.ofJson?_toJson (m : MethodDecl) : MethodDecl.ofJson? m.toJson = some m := by
  rw [ofJson?, toJson, record?_record _ (by rfl) (by decide)]
  simp [required, withDefault, readList_map TypedName.ofJson?_toJson]

theorem ClassDecl.proper_toJson (d : ClassDecl) : d.toJson.Proper :=
  proper_record (by simp [proper_arr_map TypedName.proper_toJson,
    proper_arr_map FunctionDecl.proper_toJson, proper_arr_map MethodDecl.proper_toJson])

theorem ClassDecl.ofJson?_toJson (d : ClassDecl) : ClassDecl.ofJson? d.toJson = some d := by
  rw [ofJson?, toJson, record?_record _ (by rfl) (by decide)]
  simp [required, withDefault, readList_map TypedName.ofJson?_toJson,
    readList_map FunctionDecl.ofJson?_toJson, readList_map MethodDecl.ofJson?_toJson]

/-! ## Platforms -/

theorem AllocaSource.ofName?_name (a : AllocaSource) : ofName? a.name = some a := by
  cases a <;> rfl

theorem AllocaSource.ofJson?_name (a : AllocaSource) : AllocaSource.ofJson? (.text a.name) = some a :=
  ofName?_name a

theorem PlatformFeatures.proper_toJson (f : PlatformFeatures) : f.toJson.Proper :=
  proper_record (by simp)

theorem PlatformFeatures.ofJson?_toJson (f : PlatformFeatures) :
    PlatformFeatures.ofJson? f.toJson = some f := by
  rw [ofJson?, toJson, record?_record _ (by rfl) (by decide)]
  simp [withDefault]

namespace Target

/-- Every size is a number of 32 bits. -/
def Fits (t : Target) : Prop := ∀ n ∈ t.sizes, n < UInt32.size

instance (t : Target) : Decidable t.Fits := inferInstanceAs (Decidable (∀ n ∈ t.sizes, _))

theorem proper_toJson (t : Target) : t.toJson.Proper :=
  proper_record (by simp)

theorem ofJson?_toJson {t : Target} (h : t.Fits) : Target.ofJson? t.toJson = some t := by
  simp only [Fits, sizes, List.forall_mem_cons] at h
  obtain ⟨hpointer, hshort, hint, hlong, hlongLong, hsizeT, hbool, -⟩ := h
  rw [ofJson?, toJson, record?_record _ (by rfl) (by decide)]
  simp [withDefault, readU32_nat, hpointer, hshort, hint, hlong, hlongLong, hsizeT, hbool]

end Target

theorem Platform.proper_toJson (p : Platform) : p.toJson.Proper :=
  proper_record (by simp [PlatformFeatures.proper_toJson, Target.proper_toJson])

theorem Platform.ofJson?_toJson {p : Platform} (h : p.layout.Fits) :
    Platform.ofJson? p.toJson = some p := by
  rw [ofJson?, toJson, record?_record _ (by rfl) (by decide)]
  simp [withDefault, AllocaSource.ofJson?_name, PlatformFeatures.ofJson?_toJson,
    Target.ofJson?_toJson h]

/-! ## Output directories -/

theorem OutputDirs.proper_toJson (d : OutputDirs) : d.toJson.Proper :=
  proper_record (by simp)

theorem OutputDirs.ofJson?_toJson (d : OutputDirs) : OutputDirs.ofJson? d.toJson = some d := by
  rw [ofJson?, toJson, record?_record _ (by rfl) (by decide)]
  simp [required]

/-- Directories are no `null`. -/
theorem OutputDirs.optional_toJson (d : OutputDirs) :
    optional OutputDirs.ofJson? d.toJson = some (some d) :=
  congrArg (Option.map some) (ofJson?_toJson d)

/-! ## Manifests -/

namespace Manifest

variable {m : Manifest}

theorem proper_toJson (m : Manifest) : m.toJson.Proper := by
  refine proper_record ?_
  cases m.dest <;> simp [proper_arr_map ParcelDecl.proper_toJson,
    proper_arr_map ClassDecl.proper_toJson, Platform.proper_toJson, OutputDirs.proper_toJson]

theorem ofJson?_toJson (h : m.platform.layout.Fits) : Manifest.ofJson? m.toJson = some m := by
  obtain ⟨declarations, platform, dest, header, footer⟩ := m
  have hplatform : Platform.ofJson? platform.toJson = some platform := Platform.ofJson?_toJson h
  rw [ofJson?, toJson, record?_record _ (by rfl) (by decide)]
  cases dest with
  | none =>
      simp [withDefault, readList_map ParcelDecl.ofJson?_toJson,
        readList_map ClassDecl.ofJson?_toJson, hplatform]
  | some d =>
      simp [withDefault, readList_map ParcelDecl.ofJson?_toJson,
        readList_map ClassDecl.ofJson?_toJson, hplatform, OutputDirs.optional_toJson]

/-- A manifest is read back from its text, and from any text that spells the same tokens. -/
theorem read_back (h : m.platform.layout.Fits) :
    Manifest.parse? m.toJson.print = some m ∧
      ∀ text : String, Spells m.toJson.tokens text.toList → Manifest.parse? text = some m := by
  have hspelled (text : String) (ht : Spells m.toJson.tokens text.toList) :
      Manifest.parse? text = some m := by
    rw [parse?, parse?_of_spells (proper_toJson m) ht, Option.bind_some]
    exact ofJson?_toJson h
  exact ⟨hspelled _ (spells_print m.toJson), hspelled⟩

/-- Names with characters of every way of writing, the largest number, and fields with and without
a value. -/
def awkward : Manifest where
  declarations :=
    { parcels :=
        [{ name := "\"Zoo\"\\\n\x01\x1f\x7f", nickname := some "", prereqs := ["", "é😀"] }]
      classes :=
        [{ name := "Zoo::Dog", parcel := "\"Zoo\"\\\n\x01\x1f\x7f", parent := some "null"
           isFinal := true
           members := [⟨"breed", "char*"⟩]
           functions := [{ name := "count", returns := "", isInline := true }]
           methods := [{ name := "Speak", params := [⟨"times", "int"⟩], isAbstract := true }] }] }
  platform :=
    { allocaSource := .nowhere, hasStdbool := false
      layout := { Target.lp64 with long := 4294967295 } }
  dest := some ⟨"out/include", "out/source"⟩
  footer := some "*/\t//"

theorem awkward_read_back :
    awkward.platform.layout.Fits ∧ Manifest.parse? awkward.toJson.print = some awkward ∧
      ∀ text : String, Spells awkward.toJson.tokens text.toList →
        Manifest.parse? text = some awkward :=
  ⟨by decide, read_back (by decide)⟩

end Manifest

end ClassTables
