import ClassTables.Proofs.ClassVariables
import ClassTables.Proofs.LetterCase
import ClassTables.Proofs.OffsetVariables
import ClassTables.Proofs.ParcelRosters
/-!
# Names that the data of classes defines

The data of a class defines variables, functions and arrays.  Their names are put together from the
prefix of the parcel, the last part of the class name or the nickname, and a suffix, so classes of
different names may well define the same name (`twoDogs_defined_twice`).  Suffixes keep most of the
names apart.  What is left is collected in `SymbolsApart` and `NamesApart`: the source of a parcel
defines no name twice exactly if its classes are apart in this sense (`names_defined_once_iff`).

Where the nickname of the parcel starts with a capital and has a small letter, the prefixes keep
apart what suffixes do not, and `SymbolsApart` is enough (`dataNames_nodup_iff_of_capitalized`).
-/

namespace ClassTables

/-! ## Reading the names -/

/-- The name that a variable goes by.  An object is held by a pointer, whose star belongs to the
type. -/
def VarDecl.symbol (v : VarDecl) : String := if v.type = "cfish_Class" then v.identifier else v.name

/-- The variable is defined elsewhere. -/
def VarDecl.isExtern (v : VarDecl) : Bool := "extern".toList.isPrefixOf v.specifiers.toList

/-- The name of the variable, array or function that an item defines. -/
def Item.defined? : Item → Option String
  | .var v => if v.isExtern then none else some v.symbol
  | .array a => some a.name
  | .fnDef f _ => some f.name
  | _ => none

/-- The names that are defined, in order. -/
abbrev Fragment.definedNames (f : Fragment) : List String := f.collect Item.defined?

theorem passes_defined : PassesDirectives Item.defined? :=
  ⟨⟨fun _ => rfl, fun _ => rfl, rfl⟩, fun _ => rfl, fun _ => rfl⟩

/-- The names that the data of the classes of a parcel defines. -/
def Hierarchy.dataNames (h : Hierarchy) (p : Parcel) : List String :=
  Fragment.definedNames ((h.classesOf p).flatMap (·.dataFragment))

/-- The names that the source of a parcel defines besides: that of the table of the classes, and
those of the variable and the two functions that bring the parcel up. -/
def Hierarchy.frameNames (h : Hierarchy) (p : Parcel) : List String :=
  (if h.dynamicClassesOf p = [] then [] else ["class_specs"]) ++
    ["bootstrap_state", p.bootInheritanceName, p.bootParcelName]

/-- **The names that a source defines,** those of the data of its classes first. -/
theorem Bindings.definedNames_parcelSource (b : Bindings) (p : Parcel) :
    (b.parcelSource p).definedNames = b.hierarchy.dataNames p ++ b.hierarchy.frameNames p := by
  have hdata : b.hierarchy.dataNames p =
      (b.hierarchy.classesOf p).flatMap fun c => c.dataFragment.definedNames := collect_flatMap _ _
  have htable : (b.hierarchy.classTable p).definedNames =
      if b.hierarchy.dynamicClassesOf p = [] then [] else ["class_specs"] := by
    rw [Hierarchy.classTable_eq]
    split <;> rfl
  refine (b.collect_parcelSource p passes_defined).trans ?_
  rw [Hierarchy.frameNames, hdata, ← htable, List.append_assoc]
  rfl

/-! ## The parts of the data of a class -/

/-- What the data of a class defines. -/
inductive DataPart where
  /-- The variable for the offset of the members. -/
  | members
  /-- The variable for the offset of a method. -/
  | offset (m : Method)
  /-- The function in the slot of an abstract method. -/
  | stub (m : Method)
  /-- The array for the methods of a kind. -/
  | array (k : MethodKind)
  /-- The variable for the class object. -/
  | object
deriving DecidableEq

/-- How the name of a part ends. -/
def DataPart.suffix : DataPart → String
  | .members => "_OFFSET"
  | .offset _ => "_OFFSET"
  | .stub _ => "_IMP"
  | .array k => Class.arraySuffix k
  | .object => ""

/-- The endings of all parts but class objects. -/
def DataPart.suffixes : List String :=
  ["_OFFSET", "_IMP", "_NOVEL_METHS", "_OVERRIDDEN_METHS", "_INHERITED_METHS"]

/-- Parts that are told apart by what stands in front of the ending, if at all. -/
inductive DataPart.Similar : DataPart → DataPart → Prop
  | members : Similar .members .members
  | membersOffset (m : Method) : Similar .members (.offset m)
  | offsetMembers (m : Method) : Similar (.offset m) .members
  | offsets (m m' : Method) : Similar (.offset m) (.offset m')
  | stubs (m m' : Method) : Similar (.stub m) (.stub m')
  | arrays (k : MethodKind) : Similar (.array k) (.array k)

namespace Class

variable {c c' : Class} {x x' : DataPart}

/-- The methods whose slots stubs fill. -/
def stubs (c : Class) : List Method :=
  c.methods.filter fun m => (⟨m, c⟩ : MethodBinding).needsStub

/-- The kinds of methods that the class has. -/
def kinds (c : Class) : List MethodKind :=
  [MethodKind.novel, .overridden, .inherited].filter (c.bindingsOfKind · ≠ [])

/-- The parts of the data, in order. -/
def parts (c : Class) : List DataPart :=
  .members :: (c.methods.map .offset ++ (c.stubs.map .stub ++ (c.kinds.map .array ++ [.object])))

/-- The name of a part. -/
def partName (c : Class) : DataPart → String
  | .members => c.fullIvarsOffset
  | .offset m => m.fullOffsetSym c.toClassHead
  | .stub m => m.impFunc
  | .array k => c.arrayName k
  | .object => c.fullClassVar

/-- The class has a use for the part. -/
def HasPart (c : Class) : DataPart → Prop
  | .members => True
  | .offset m => m ∈ c.methods
  | .stub m => m ∈ c.stubs
  | .array k => c.bindingsOfKind k ≠ []
  | .object => True

theorem mem_kinds {k : MethodKind} : k ∈ c.kinds ↔ c.bindingsOfKind k ≠ [] := by
  cases k <;> simp [kinds]

theorem mem_parts : x ∈ c.parts ↔ c.HasPart x := by
  cases x <;> simp [parts, HasPart, mem_kinds]

/-- No part comes twice. -/
theorem parts_nodup (hd : c.Distinct) : c.parts.Nodup := by
  have hmethods : c.methods.Nodup := (methodList_names_nodup hd.methods).of_map
  have hoffsets : (c.methods.map DataPart.offset).Nodup :=
    hmethods.map fun _ _ => DataPart.offset.inj
  have hstubs : (c.stubs.map DataPart.stub).Nodup :=
    (hmethods.filter _).map fun _ _ => DataPart.stub.inj
  have harrays : (c.kinds.map DataPart.array).Nodup :=
    (List.Nodup.filter _ (by decide)).map fun _ _ => DataPart.array.inj
  simp [parts, List.nodup_append', hoffsets, hstubs, harrays, List.disjoint_left]

/-- **The names that the data of a class defines.** -/
theorem definedNames_dataFragment (hinert : c.inert = false) :
    c.dataFragment.definedNames = c.parts.map c.partName := by
  have hoffsets : c.offsetVars.definedNames = (c.methods.map .offset).map c.partName := by
    rw [offsetVars, bindings, List.map_map, List.map_map]
    exact collect_map _ fun _ => rfl
  have hstubs : c.abstractDefs.definedNames = (c.stubs.map .stub).map c.partName := by
    rw [abstractDefs, bindings, List.filter_map, List.flatMap_map, List.map_map]
    exact collect_flatMap_eq_map _ fun _ => rfl
  have harray : ∀ k, (c.methodArray k).definedNames =
      if c.bindingsOfKind k = [] then [] else [c.arrayName k] := by
    intro k
    rw [methodArray_eq]
    split <;> rfl
  have harrays : c.methodArrays.definedNames = (c.kinds.map .array).map c.partName := by
    have hkinds : ∀ ks : List MethodKind, Fragment.definedNames (ks.flatMap c.methodArray) =
        ((ks.filter (c.bindingsOfKind · ≠ [])).map .array).map c.partName := by
      intro ks
      induction ks with
      | nil => rfl
      | cons k ks ih =>
          simp only [List.flatMap_cons, collect_append, ih, harray]
          by_cases hk : c.bindingsOfKind k = [] <;> simp [hk, partName]
    rw [kinds, ← hkinds]
    simp [methodArrays]
  have hmembers : Fragment.definedNames [.var { type := "size_t", name := c.fullIvarsOffset }] =
      [c.partName .members] := rfl
  have hsymbol : c.classVarDef.symbol = c.fullClassVar :=
    (if_pos rfl).trans (classVarDef_introduces_iff.mpr rfl).2
  have hobject : Fragment.definedNames
      [.var { type := "cfish_Class", name := "*" ++ c.fullClassVar }] = [c.partName .object] :=
    congrArg ([·]) hsymbol
  rw [dataFragment, if_neg (by simp [hinert])]
  simp only [collect_append, collect_titled passes_defined.toPassesFrames, hmembers, hoffsets,
    hstubs, harrays, hobject]
  simp [parts]

/-! ## Names of two parts -/

theorem exists_partName_eq (c : Class) (x : DataPart) :
    ∃ stem, c.partName x = stem ++ x.suffix := by
  cases x with
  | object => exact ⟨c.fullClassVar, String.append_empty.symm⟩
  | _ => exact ⟨_, rfl⟩

theorem suffix_mem (hx : x ≠ .object) : x.suffix ∈ DataPart.suffixes := by
  cases x with
  | members => decide
  | offset m => exact List.mem_cons_self
  | stub m => exact List.mem_cons_of_mem _ List.mem_cons_self
  | array k => cases k <;> decide
  | object => exact absurd rfl hx

theorem similar_of_suffix_eq (h : x.suffix = x'.suffix) (hx : x ≠ .object) (hx' : x' ≠ .object) :
    x.Similar x' := by
  rcases x with _ | m | m | (_ | _ | _) | _ <;> rcases x' with _ | m' | m' | (_ | _ | _) | _ <;>
    first
    | constructor
    | exact absurd rfl hx
    | exact absurd rfl hx'
    | simp [DataPart.suffix, arraySuffix] at h

/-- Equal names end alike, but for those of class objects. -/
theorem similar_of_partName_eq (h : c.partName x = c'.partName x') (hx : x ≠ .object)
    (hx' : x' ≠ .object) : x.Similar x' := by
  have hapart : ∀ s ∈ DataPart.suffixes, ∀ t ∈ DataPart.suffixes,
      s ≠ t → ¬ s.toList <:+ t.toList := by decide
  refine similar_of_suffix_eq ?_ hx hx'
  obtain ⟨stem, hstem⟩ := c.exists_partName_eq x
  obtain ⟨stem', hstem'⟩ := c'.exists_partName_eq x'
  rw [hstem, hstem'] at h
  by_contra hne
  exact append_ne_append (hapart _ (suffix_mem hx) _ (suffix_mem hx') hne)
    (hapart _ (suffix_mem hx') _ (suffix_mem hx) (Ne.symm hne)) _ _ h

/-- A class calls its methods by different symbols. -/
theorem eq_of_shortMethodSym_eq (hd : c.Distinct) {m m' : Method} (hm : m ∈ c.methods)
    (hm' : m' ∈ c.methods)
    (h : m.shortMethodSym c.toClassHead = m'.shortMethodSym c.toClassHead) : m = m' :=
  List.inj_on_of_nodup_map (methodList_names_nodup hd.methods) hm hm'
    ((String.append_right_inj _).mp h)

end Class

/-! Within a parcel the prefixes tell nothing apart. -/

section OneParcel

variable {c c' : ClassHead} {m m' : Method} (hparcel : c.parcel = c'.parcel)

include hparcel

theorem fullIvarsOffset_eq_iff :
    c.fullIvarsOffset = c'.fullIvarsOffset ↔ c.nickname = c'.nickname := by
  have hsame : c.lowerPrefix = c'.lowerPrefix := congrArg Parcel.lowerPrefix hparcel
  unfold ClassHead.fullIvarsOffset ClassHead.fullIvarsFunc ClassHead.shortIvarsFunc
  rw [hsame, String.append_left_inj, String.append_right_inj, String.append_left_inj]

theorem fullOffsetSym_eq_iff :
    m.fullOffsetSym c = m'.fullOffsetSym c' ↔ m.shortMethodSym c = m'.shortMethodSym c' := by
  have hsame : c.capPrefix = c'.capPrefix := congrArg Parcel.capPrefix hparcel
  unfold Method.fullOffsetSym Method.fullMethodSym
  rw [hsame, String.append_left_inj, String.append_right_inj]

theorem impFunc_eq_iff (hm : m.declarer = c) (hm' : m'.declarer = c') :
    m.impFunc = m'.impFunc ↔ m.shortMethodSym c = m'.shortMethodSym c' := by
  have hsame : c.lowerPrefix = c'.lowerPrefix := congrArg Parcel.lowerPrefix hparcel
  unfold Method.impFunc Method.impFuncIn ClassHead.fullSym Method.shortMethodSym
  rw [hm, hm', hsame, String.append_left_inj, String.append_right_inj]

theorem fullClassVar_eq_iff :
    c.fullClassVar = c'.fullClassVar ↔ c.shortClassVar = c'.shortClassVar := by
  have hsame : c.upperPrefix = c'.upperPrefix := congrArg Parcel.upperPrefix hparcel
  unfold ClassHead.fullClassVar
  rw [hsame, String.append_right_inj]

theorem fullClassVar_eq_append_iff {s : String} :
    c.fullClassVar = c'.fullClassVar ++ s ↔ c.shortClassVar = c'.shortClassVar ++ s := by
  have hsame : c.upperPrefix = c'.upperPrefix := congrArg Parcel.upperPrefix hparcel
  unfold ClassHead.fullClassVar
  rw [hsame, String.append_assoc, String.append_right_inj]

end OneParcel

/-! ## Classes whose data defines no name twice -/

/-- Classes are told apart by their symbols without prefix. -/
structure SymbolsApart (l : List Class) : Prop where
  /-- The last parts of the class names differ in more than case. -/
  lastParts : ∀ c ∈ l, ∀ c' ∈ l, c.shortClassVar = c'.shortClassVar → c = c'
  nicknames : ∀ c ∈ l, ∀ c' ∈ l, c.nickname = c'.nickname → c = c'
  /-- A nickname and a method name, put together, belong to one class only. -/
  methods : ∀ c ∈ l, ∀ c' ∈ l, ∀ m ∈ c.methods, ∀ m' ∈ c'.methods,
    m.shortMethodSym c.toClassHead = m'.shortMethodSym c'.toClassHead → c = c'
  /-- No class is called like an array of another. -/
  arrays : ∀ c ∈ l, ∀ c' ∈ l, ∀ k, c'.bindingsOfKind k ≠ [] →
    c.shortClassVar ≠ c'.shortClassVar ++ Class.arraySuffix k

/-- Names whose prefixes are spelled in different ways are different too. -/
structure NamesApart (l : List Class) : Prop extends SymbolsApart l where
  /-- No method is called like the access to the members. -/
  members : ∀ c ∈ l, ∀ c' ∈ l, ∀ m ∈ c'.methods,
    c.fullIvarsFunc ≠ m.fullMethodSym c'.toClassHead
  objects : ∀ c ∈ l, ∀ c' ∈ l, c.fullClassVar ≠ c'.fullIvarsOffset
  objectsOffsets : ∀ c ∈ l, ∀ c' ∈ l, ∀ m ∈ c'.methods,
    c.fullClassVar ≠ m.fullOffsetSym c'.toClassHead
  objectsStubs : ∀ c ∈ l, ∀ c' ∈ l, ∀ m ∈ c'.stubs, c.fullClassVar ≠ m.impFunc

/-- The classes of one parcel, each with distinct methods. -/
structure OfOneParcel (l : List Class) : Prop where
  parcel : ∀ c ∈ l, ∀ c' ∈ l, c.parcel = c'.parcel
  distinct : ∀ c ∈ l, c.Distinct

/-- Parts of one name are the same part of the same class. -/
def NamesUnique (l : List Class) : Prop :=
  ∀ c ∈ l, ∀ x, c.HasPart x → ∀ c' ∈ l, ∀ x', c'.HasPart x' →
    c.partName x = c'.partName x' → c = c' ∧ x = x'

section Apart

variable {l : List Class} {c c' : Class} {x : DataPart}

/-- No other part has the name of a class object. -/
theorem NamesApart.object_ne (h : NamesApart l) (ho : OfOneParcel l) (hc : c ∈ l) (hc' : c' ∈ l)
    (hx : c'.HasPart x) (hne : x ≠ .object) : c.fullClassVar ≠ c'.partName x := by
  cases x with
  | members => exact h.objects c hc c' hc'
  | offset m => exact h.objectsOffsets c hc c' hc' m hx
  | stub m => exact h.objectsStubs c hc c' hc' m hx
  | array k =>
      intro heq
      exact h.arrays c hc c' hc' k hx ((fullClassVar_eq_append_iff (ho.parcel c hc c' hc')).mp heq)
  | object => exact absurd rfl hne

theorem NamesApart.namesUnique (h : NamesApart l) (ho : OfOneParcel l) : NamesUnique l := by
  intro c hc x hx c' hc' x' hx' heq
  have hparcel := ho.parcel c hc c' hc'
  by_cases hobject : x = .object
  · subst hobject
    by_cases hobject' : x' = .object
    · subst hobject'
      exact ⟨h.lastParts c hc c' hc' ((fullClassVar_eq_iff hparcel).mp heq), rfl⟩
    · exact absurd heq (h.object_ne ho hc hc' hx' hobject')
  by_cases hobject' : x' = .object
  · subst hobject'
    exact absurd heq.symm (h.object_ne ho hc' hc hx hobject)
  -- of the other parts, those that end alike are left
  cases Class.similar_of_partName_eq heq hobject hobject' with
  | members => exact ⟨h.nicknames c hc c' hc' ((fullIvarsOffset_eq_iff hparcel).mp heq), rfl⟩
  | membersOffset m =>
      exact absurd ((String.append_left_inj _).mp heq) (h.members c hc c' hc' m hx')
  | offsetMembers m =>
      exact absurd ((String.append_left_inj _).mp heq).symm (h.members c' hc' c hc m hx)
  | offsets m m' =>
      have hsym := (fullOffsetSym_eq_iff hparcel).mp heq
      obtain rfl := h.methods c hc c' hc' m hx m' hx' hsym
      exact ⟨rfl, congrArg _ (Class.eq_of_shortMethodSym_eq (ho.distinct c hc) hx hx' hsym)⟩
  | stubs m m' =>
      obtain ⟨hm, hstub⟩ := List.mem_filter.mp hx
      obtain ⟨hm', hstub'⟩ := List.mem_filter.mp hx'
      have hsym := (impFunc_eq_iff hparcel
        (Class.declarer_of_needsStub (ho.distinct c hc) hm hstub)
        (Class.declarer_of_needsStub (ho.distinct c' hc') hm' hstub')).mp heq
      obtain rfl := h.methods c hc c' hc' m hm m' hm' hsym
      exact ⟨rfl, congrArg _ (Class.eq_of_shortMethodSym_eq (ho.distinct c hc) hm hm' hsym)⟩
  | arrays k =>
      exact ⟨h.lastParts c hc c' hc' ((fullClassVar_eq_iff hparcel).mp
        ((String.append_left_inj _).mp heq)), rfl⟩

theorem NamesUnique.symbolsApart (h : NamesUnique l) (ho : OfOneParcel l) : SymbolsApart l := by
  constructor
  · intro c hc c' hc' hsym
    have heq := (fullClassVar_eq_iff (ho.parcel c hc c' hc')).mpr hsym
    exact (h c hc .object trivial c' hc' .object trivial heq).1
  · intro c hc c' hc' hsym
    have heq := (fullIvarsOffset_eq_iff (ho.parcel c hc c' hc')).mpr hsym
    exact (h c hc .members trivial c' hc' .members trivial heq).1
  · intro c hc c' hc' m hm m' hm' hsym
    have heq := (fullOffsetSym_eq_iff (ho.parcel c hc c' hc')).mpr hsym
    exact (h c hc (.offset m) hm c' hc' (.offset m') hm' heq).1
  · intro c hc c' hc' k hk hsym
    have heq := (fullClassVar_eq_append_iff (ho.parcel c hc c' hc')).mpr hsym
    exact nomatch (h c hc .object trivial c' hc' (.array k) hk heq).2

/-- **Every part has a name of its own exactly if the names are apart.** -/
theorem namesUnique_iff (ho : OfOneParcel l) : NamesUnique l ↔ NamesApart l := by
  refine ⟨fun h => ⟨h.symbolsApart ho, ?_, ?_, ?_, ?_⟩, fun h => h.namesUnique ho⟩
  · intro c hc c' hc' m hm hsym
    have heq : c.fullIvarsOffset = m.fullOffsetSym c'.toClassHead := congrArg (· ++ "_OFFSET") hsym
    exact nomatch (h c hc .members trivial c' hc' (.offset m) hm heq).2
  · intro c hc c' hc' heq
    exact nomatch (h c hc .object trivial c' hc' .members trivial heq).2
  · intro c hc c' hc' m hm heq
    exact nomatch (h c hc .object trivial c' hc' (.offset m) hm heq).2
  · intro c hc c' hc' m hm heq
    exact nomatch (h c hc .object trivial c' hc' (.stub m) hm heq).2

/-- The parts of the data of all classes. -/
def dataParts (l : List Class) : List (Class × DataPart) :=
  l.flatMap fun c => c.parts.map (Prod.mk c)

theorem mem_dataParts : (c, x) ∈ dataParts l ↔ c ∈ l ∧ c.HasPart x := by
  simp [dataParts, Class.mem_parts]

theorem dataParts_nodup (hl : l.Nodup) (ho : OfOneParcel l) : (dataParts l).Nodup := by
  rw [dataParts, List.nodup_flatMap]
  constructor
  · intro c hc
    exact (Class.parts_nodup (ho.distinct c hc)).map fun _ _ h => (Prod.mk.inj h).2
  · refine hl.imp fun hne x hx hx' => hne ?_
    obtain ⟨_, -, rfl⟩ := List.mem_map.mp hx
    obtain ⟨_, -, heq⟩ := List.mem_map.mp hx'
    exact (Prod.mk.inj heq).1.symm

theorem names_nodup_iff_namesUnique (hl : l.Nodup) (ho : OfOneParcel l) :
    ((dataParts l).map fun x => x.1.partName x.2).Nodup ↔ NamesUnique l := by
  rw [List.nodup_map_iff_inj_on (dataParts_nodup hl ho)]
  constructor
  · intro hinj c hc x hx c' hc' x' hx' heq
    exact Prod.mk.inj (hinj _ (mem_dataParts.mpr ⟨hc, hx⟩) _ (mem_dataParts.mpr ⟨hc', hx'⟩) heq)
  · rintro hunique ⟨c, x⟩ hx ⟨c', x'⟩ hx' heq
    obtain ⟨hc, hx⟩ := mem_dataParts.mp hx
    obtain ⟨hc', hx'⟩ := mem_dataParts.mp hx'
    obtain ⟨rfl, rfl⟩ := hunique c hc x hx c' hc' x' hx' heq
    rfl

end Apart

/-! ## The data of a parcel -/

section Hierarchy

variable {d : Declarations} {h : Hierarchy} {p : Parcel}

theorem dataNames_eq (h : Hierarchy) (p : Parcel) :
    h.dataNames p = (dataParts (h.dynamicClassesOf p)).map fun x => x.1.partName x.2 := by
  rw [Hierarchy.dataNames, Hierarchy.dynamicClassesOf]
  induction h.classesOf p with
  | nil => rfl
  | cons c l ih =>
      cases hinert : c.inert with
      | true =>
          have hnone : c.dataFragment = [] := if_pos hinert
          rw [List.flatMap_cons, hnone, List.nil_append, ih,
            List.filter_cons_of_neg (by simp [hinert])]
      | false =>
          have hnames := Class.definedNames_dataFragment hinert
          rw [List.filter_cons_of_pos (by simp [hinert])]
          simp only [List.flatMap_cons, collect_append, ih, hnames]
          simp [dataParts]

theorem dynamicClassesOf_ofOneParcel (hb : d.build = .ok h) :
    OfOneParcel (h.dynamicClassesOf p) where
  parcel := by
    intro c hc c' hc'
    rw [Hierarchy.dynamicClassesOf_eq, Hierarchy.mem_liveIn] at hc hc'
    exact parcel_eq_of_name_eq hb hc.1 hc'.1 (hc.2.trans hc'.2.symm)
  distinct := fun c hc =>
    (distinct_of_build hb (mem_classes_of_live (mem_live_of_dynamic hc))).1

theorem dynamicClassesOf_nodup (hb : d.build = .ok h) : (h.dynamicClassesOf p).Nodup := by
  rw [Hierarchy.dynamicClassesOf_eq]
  exact (liveClasses_names_nodup hb).of_map.filter _

theorem dataNames_nodup_iff (hb : d.build = .ok h) :
    (h.dataNames p).Nodup ↔ NamesApart (h.dynamicClassesOf p) := by
  have ho := dynamicClassesOf_ofOneParcel (p := p) hb
  rw [dataNames_eq, names_nodup_iff_namesUnique (dynamicClassesOf_nodup hb) ho, namesUnique_iff ho]

end Hierarchy

/-! ## The rest of the source -/

/-- How the names that are not those of data end. -/
def frameEndings : List String :=
  ["class_specs", "bootstrap_state", "bootstrap_inheritance", "bootstrap_parcel"]

theorem exists_frameName_eq {h : Hierarchy} {p : Parcel} {n : String} (hn : n ∈ h.frameNames p) :
    ∃ stem, ∃ ending ∈ frameEndings, n = stem ++ ending := by
  rcases List.mem_append.mp hn with hn | hn
  · have hn : n = "class_specs" := by
      split at hn
      · cases hn
      · exact List.mem_singleton.mp hn
    exact ⟨"", n, hn ▸ List.mem_cons_self, String.empty_append.symm⟩
  · simp only [List.mem_cons, List.not_mem_nil, or_false] at hn
    rcases hn with rfl | rfl | rfl
    · exact ⟨"", _, by decide, String.empty_append.symm⟩
    · exact ⟨p.lowerPrefix, _, by decide, rfl⟩
    · exact ⟨p.lowerPrefix, _, by decide, rfl⟩

theorem frameNames_nodup (h : Hierarchy) (p : Parcel) : (h.frameNames p).Nodup := by
  have hapart : ∀ s ∈ ["class_specs", "bootstrap_state"],
      ∀ e ∈ ["bootstrap_inheritance", "bootstrap_parcel"], ¬ e.toList <:+ s.toList := by decide
  have hplain : ∀ e ∈ ["bootstrap_inheritance", "bootstrap_parcel"],
      p.lowerPrefix ++ e ∉ ["class_specs", "bootstrap_state"] := fun e he hmem =>
    hapart _ hmem e he (String.toList_append ▸ List.suffix_append _ _)
  have hboot : p.bootInheritanceName ≠ p.bootParcelName :=
    append_ne_append (by decide) (by decide) _ _
  have hall : (["class_specs", "bootstrap_state"] ++
      [p.bootInheritanceName, p.bootParcelName]).Nodup := by
    rw [List.nodup_append']
    refine ⟨by decide, by simpa using hboot, fun n hn hn' => ?_⟩
    simp only [List.mem_cons, List.not_mem_nil, or_false] at hn'
    rcases hn' with rfl | rfl
    · exact hplain _ (by decide) hn
    · exact hplain _ (by decide) hn
  unfold Hierarchy.frameNames
  split
  · exact hall.of_cons
  · exact hall

namespace Class

/-- The variable of a class object is spelled in capitals. -/
theorem isLower_eq_false_of_mem_fullClassVar {c : Class} {d : Char}
    (h : d ∈ c.fullClassVar.toList) : d.isLower = false := by
  unfold ClassHead.fullClassVar at h
  rw [String.toList_append] at h
  rcases List.mem_append.mp h with h | h
  · exact Text.isLower_eq_false_of_mem_toUpper h
  · exact Text.isLower_eq_false_of_mem_toUpper h

/-- A name with a small letter is not that of a class object. -/
theorem fullClassVar_ne_of_isLower {c : Class} {n : String} {d : Char} (hd : d ∈ n.toList)
    (hlower : d.isLower = true) : c.fullClassVar ≠ n := by
  rintro rfl
  rw [isLower_eq_false_of_mem_fullClassVar hd] at hlower
  cases hlower

/-- No part of the data of a class has the name of something else in the source. -/
theorem partName_ne_of_mem_frameNames {h : Hierarchy} {p : Parcel} {n : String}
    (hn : n ∈ h.frameNames p) (c : Class) (x : DataPart) : c.partName x ≠ n := by
  have hsmall : ∀ e ∈ frameEndings, e.toList.any (·.isLower) = true := by decide
  have hapart : ∀ s ∈ DataPart.suffixes, ∀ e ∈ frameEndings,
      ¬ s.toList <:+ e.toList ∧ ¬ e.toList <:+ s.toList := by decide
  obtain ⟨stem, ending, hending, rfl⟩ := exists_frameName_eq hn
  by_cases hx : x = .object
  · subst hx
    obtain ⟨d, hd, hlower⟩ := List.any_eq_true.mp (hsmall ending hending)
    have hmem : d ∈ (stem ++ ending).toList := by
      rw [String.toList_append]
      exact List.mem_append_right _ hd
    exact fullClassVar_ne_of_isLower hmem hlower
  · obtain ⟨stem', hstem'⟩ := c.exists_partName_eq x
    obtain ⟨hns, hne⟩ := hapart _ (suffix_mem hx) ending hending
    rw [hstem']
    exact append_ne_append hns hne _ _

end Class

/-- **The source defines no name twice if the data does not.** -/
theorem definedNames_nodup_iff (b : Bindings) (p : Parcel) :
    (b.parcelSource p).definedNames.Nodup ↔ (b.hierarchy.dataNames p).Nodup := by
  rw [b.definedNames_parcelSource, List.nodup_append']
  refine ⟨And.left, fun hdata => ⟨hdata, frameNames_nodup _ p, fun n hn hframe => ?_⟩⟩
  rw [dataNames_eq] at hn
  obtain ⟨⟨c, x⟩, -, rfl⟩ := List.mem_map.mp hn
  exact Class.partName_ne_of_mem_frameNames hframe c x rfl

/-! ## Prefixes -/

/-- The nickname starts with a capital and has a small letter, both of ASCII, such as `Animal`. -/
def Parcel.Capitalized (p : Parcel) : Prop :=
  (∃ c ∈ p.nickname.toList.head?, c.isUpper = true) ∧ ∃ c ∈ p.nickname.toList, c.isLower = true

namespace Parcel.Capitalized

variable {p : Parcel} (h : p.Capitalized)

include h

theorem exists_isLower_capPrefix : ∃ d ∈ p.capPrefix.toList, d.isLower = true := by
  obtain ⟨-, d, hd, hlower⟩ := h
  refine ⟨d, ?_, hlower⟩
  rw [capPrefix, String.toList_append]
  exact List.mem_append_left _ hd

theorem exists_isLower_lowerPrefix : ∃ d ∈ p.lowerPrefix.toList, d.isLower = true := by
  obtain ⟨d, hd, hlower⟩ := h.exists_isLower_capPrefix
  exact ⟨d, Text.mem_toLower hlower hd, hlower⟩

/-- The prefix in small letters starts in another way than the prefix as it is. -/
theorem lowerPrefix_append_ne (s t : String) : p.lowerPrefix ++ s ≠ p.capPrefix ++ t := by
  obtain ⟨⟨c, hc, hupper⟩, -⟩ := h
  obtain ⟨cs, hnickname⟩ := List.head?_eq_some_iff.mp hc
  have hcap : p.capPrefix.toList = c :: (cs ++ ['_']) := by
    rw [capPrefix, String.toList_append, hnickname]
    rfl
  obtain ⟨d, ds, hlow, hlower⟩ := Text.exists_toLower_eq_cons hupper hcap
  intro heq
  have hlist := congrArg String.toList heq
  rw [String.toList_append, String.toList_append, lowerPrefix, hlow, hcap] at hlist
  obtain rfl : d = c := (List.cons.inj hlist).1
  exact Char.not_isLower_of_isUpper hupper hlower

end Parcel.Capitalized

/-- A name with a small letter in its prefix is not that of a class object. -/
theorem Class.fullClassVar_ne_append {c : Class} {pre : String}
    (h : ∃ d ∈ pre.toList, d.isLower = true) (s : String) : c.fullClassVar ≠ pre ++ s := by
  obtain ⟨d, hd, hlower⟩ := h
  refine fullClassVar_ne_of_isLower ?_ hlower
  rw [String.toList_append]
  exact List.mem_append_left _ hd

/-- **Below such a nickname, symbols that are apart without prefixes are enough.** -/
theorem SymbolsApart.namesApart {l : List Class} (h : SymbolsApart l) (ho : OfOneParcel l)
    (hcap : ∀ c ∈ l, c.parcel.Capitalized) : NamesApart l := by
  refine ⟨h, ?_, ?_, ?_, ?_⟩
  · intro c hc c' hc' m hm
    have hsame : c.lowerPrefix = c'.lowerPrefix :=
      congrArg Parcel.lowerPrefix (ho.parcel c hc c' hc')
    unfold ClassHead.fullIvarsFunc Method.fullMethodSym
    rw [hsame]
    exact (hcap c' hc').lowerPrefix_append_ne _ _
  · intro c hc c' hc'
    unfold ClassHead.fullIvarsOffset ClassHead.fullIvarsFunc
    rw [String.append_assoc]
    exact Class.fullClassVar_ne_append (hcap c' hc').exists_isLower_lowerPrefix _
  · intro c hc c' hc' m hm
    unfold Method.fullOffsetSym Method.fullMethodSym
    rw [String.append_assoc]
    exact Class.fullClassVar_ne_append (hcap c' hc').exists_isLower_capPrefix _
  · intro c hc c' hc' m hm
    obtain ⟨hm, hstub⟩ := List.mem_filter.mp hm
    unfold Method.impFunc Method.impFuncIn ClassHead.fullSym
    rw [Class.declarer_of_needsStub (ho.distinct c' hc') hm hstub, String.append_assoc]
    exact Class.fullClassVar_ne_append (hcap c' hc').exists_isLower_lowerPrefix _

theorem dataNames_nodup_iff_of_capitalized {d : Declarations} {h : Hierarchy} {p : Parcel}
    (hb : d.build = .ok h) (hp : p ∈ h.parcels) (hcap : p.Capitalized) :
    (h.dataNames p).Nodup ↔ SymbolsApart (h.dynamicClassesOf p) := by
  rw [dataNames_nodup_iff hb]
  refine ⟨NamesApart.toSymbolsApart, fun hsymbols =>
    hsymbols.namesApart (dynamicClassesOf_ofOneParcel hb) fun c hc => ?_⟩
  rw [Hierarchy.dynamicClassesOf_eq, Hierarchy.mem_liveIn] at hc
  rwa [(parcel_name_eq_iff hb (mem_classes_of_live hc.1) hp).mp hc.2]

/-! ## The names of a source -/

/-- When the source of a parcel defines no name twice. -/
structure Bindings.NamesOnce (b : Bindings) (p : Parcel) : Prop where
  /-- The source defines the names of the data of its classes, and a few more. -/
  source : (b.parcelSource p).definedNames =
    b.hierarchy.dataNames p ++ b.hierarchy.frameNames p
  /-- Those of the data are pairwise different exactly if the names of the classes are apart. -/
  data : (b.hierarchy.dataNames p).Nodup ↔ NamesApart (b.hierarchy.dynamicClassesOf p)
  /-- The few more change nothing about it. -/
  whole : (b.parcelSource p).definedNames.Nodup ↔ NamesApart (b.hierarchy.dynamicClassesOf p)
  /-- Below a nickname such as `Animal`, only symbols without prefixes have to be apart. -/
  capitalized : p ∈ b.hierarchy.parcels → p.Capitalized →
    ((b.hierarchy.dataNames p).Nodup ↔ SymbolsApart (b.hierarchy.dynamicClassesOf p))

/-- **Which classes may share a source:** the names that their data defines are pairwise different
exactly if the classes are told apart by the last parts of their names, by their nicknames, and by
these put together with the names of their methods, and if names that are put together in different
ways do not meet by chance. -/
theorem names_defined_once_iff {d : Declarations} {b : Bindings} (hb : d.build = .ok b.hierarchy)
    (p : Parcel) : b.NamesOnce p where
  source := b.definedNames_parcelSource p
  data := dataNames_nodup_iff hb
  whole := (definedNames_nodup_iff b p).trans (dataNames_nodup_iff hb)
  capitalized := dataNames_nodup_iff_of_capitalized hb

/-- The classes of `Animal` are apart, so its source defines every name once. -/
theorem kennel_names_once : ∃ b : Bindings, ∃ p ∈ b.hierarchy.parcels, p.name = "Animal" ∧
    kennel.build = .ok b.hierarchy ∧ b.NamesOnce p ∧ (b.hierarchy.dataNames p).length = 31 ∧
      NamesApart (b.hierarchy.dynamicClassesOf p) ∧ (b.parcelSource p).definedNames.Nodup := by
  let b : Bindings := { hierarchy := kennelHierarchy }
  have hfound : ∃ p ∈ kennelHierarchy.parcels, p.name = "Animal" ∧
      (kennelHierarchy.dataNames p).length = 31 ∧ (kennelHierarchy.dataNames p).Nodup := by
    decide +kernel
  obtain ⟨p, hp, hname, hlength, hnodup⟩ := hfound
  have honce : b.NamesOnce p := names_defined_once_iff kennel_build p
  have hapart := honce.data.mp hnodup
  exact ⟨b, p, hp, hname, kennel_build, honce, hlength, hapart, honce.whole.mpr hapart⟩

/-- Two classes of different names, whose last parts are the same. -/
def twoDogs : Declarations :=
  { parcels := [{ name := "Zoo" }]
    classes := [{ name := "Zoo::Dog", parcel := "Zoo" },
      { name := "Zoo::Kennel::Dog", parcel := "Zoo" }] }

/-- **Two variables of one name:** the data of either class defines `zoo_Dog_IVARS_OFFSET` and
`ZOO_DOG`. -/
theorem twoDogs_defined_twice : ∃ b : Bindings, twoDogs.build = .ok b.hierarchy ∧
    ∃ p ∈ b.hierarchy.parcels, p.name = "Zoo" ∧ b.hierarchy.dataNames p =
        ["zoo_Dog_IVARS_OFFSET", "ZOO_DOG", "zoo_Dog_IVARS_OFFSET", "ZOO_DOG"] ∧
      ¬ (b.hierarchy.dataNames p).Nodup ∧ ¬ (b.parcelSource p).definedNames.Nodup := by
  let b : Bindings := { hierarchy := twoDogs.build.toOption.getD ⟨[], [], []⟩ }
  have hb : twoDogs.build = .ok b.hierarchy := by decide +kernel
  have hfound : ∃ p ∈ b.hierarchy.parcels, p.name = "Zoo" ∧ b.hierarchy.dataNames p =
      ["zoo_Dog_IVARS_OFFSET", "ZOO_DOG", "zoo_Dog_IVARS_OFFSET", "ZOO_DOG"] := by decide +kernel
  obtain ⟨p, hp, hname, hnames⟩ := hfound
  have htwice : ¬ (b.hierarchy.dataNames p).Nodup := by
    rw [hnames]
    decide
  exact ⟨b, hb, p, hp, hname, hnames, htwice, (definedNames_nodup_iff b p).not.mpr htwice⟩

end ClassTables
