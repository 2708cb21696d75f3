import ClassTables.Output.Bootstrap
import ClassTables.Proofs.LoadedParcels
import ClassTables.Proofs.Loading
/-!
# Loading a hierarchy parcel by parcel

The classes of a hierarchy load in the order in which the hierarchy lists them.  Parcels load their
classes one parcel after the other, which is another order.  It has parents first all the same, if
every parcel comes after those that it inherits from: a parent stands in the parcel itself or in
one of those (`bootstrap_liveIn`).

So a runtime in which all parcels of a hierarchy are registered never refuses a class
(`Ledger.accepts`, `LoadRun.accepts`).
-/

namespace ClassTables

/-! ## Classes of a parcel -/

namespace Hierarchy

/-- The classes with instances of the parcel with the given name. -/
def liveIn (h : Hierarchy) (n : String) : List Class := h.liveClasses.filter (·.parcel.name == n)

variable {h : Hierarchy} {n : String} {c : Class}

theorem dynamicClassesOf_eq (h : Hierarchy) (p : Parcel) :
    h.dynamicClassesOf p = h.liveIn p.name := by
  rw [dynamicClassesOf, classesOf, liveIn, liveClasses, List.filter_filter, List.filter_filter]
  simp only [Bool.and_comm]

theorem mem_liveIn : c ∈ h.liveIn n ↔ c ∈ h.liveClasses ∧ c.parcel.name = n := by
  rw [liveIn, List.mem_filter, beq_iff_eq]

/-- The parent of a class stands in the same parcel or in one that is inherited from. -/
theorem parcel_of_parent? {p : Parcel} {q : Class} (hc : c ∈ h.liveIn p.name)
    (hq : c.parent? = some q) : q.parcel.name = p.name ∨
      q.parcel.name ∈ (h.inheritedParcels p).map (·.name) := by
  by_cases hn : q.parcel.name = p.name
  · exact Or.inl hn
  · obtain ⟨hlive, hparcel⟩ := mem_liveIn.mp hc
    have hown : c ∈ h.classesOf p :=
      List.mem_filter.mpr ⟨(List.mem_filter.mp hlive).1, beq_iff_eq.mpr hparcel⟩
    right
    apply List.mem_map_of_mem
    rw [inheritedParcels, List.mem_eraseDups, List.mem_filter]
    refine ⟨List.mem_map_of_mem (List.mem_filterMap.mpr ⟨c, hown, hq⟩), ?_⟩
    simpa using hn

end Hierarchy

/-! ## Parents first, parcel by parcel -/

/-- A part of classes that have parents first, loaded after the parents it lacks. -/
theorem ParentsFirst.filter_after {keep : Class → Bool} {out : List Class} :
    ∀ {l seen : List Class}, (∀ c ∈ l, keep c = true → ∀ p, c.parent? = some p →
      keep p = true ∨ p ∈ out) → ParentsFirst seen l →
        ParentsFirst (seen.filter keep ++ out) (l.filter keep)
  | [], _, _, _ => trivial
  | c :: cs, seen, hkeep, h => by
      have htail := ParentsFirst.filter_after (fun e he => hkeep e (List.mem_cons_of_mem c he)) h.2
      by_cases hc : keep c = true
      · rw [List.filter_cons_of_pos hc] at htail ⊢
        refine ⟨fun p hp => ?_, htail⟩
        rcases hkeep c List.mem_cons_self hc p hp with hp' | hp'
        · exact List.mem_append_left _ (List.mem_filter.mpr ⟨h.1 p hp, hp'⟩)
        · exact List.mem_append_right _ hp'
      · rw [List.filter_cons_of_neg hc] at htail ⊢
        exact htail

theorem ParentsFirst.append_reverse : ∀ {l l' seen : List Class}, ParentsFirst seen l →
    ParentsFirst (l.reverse ++ seen) l' → ParentsFirst seen (l ++ l')
  | [], _, _, _, h' => h'
  | c :: cs, l', seen, h, h' => by
      rw [List.reverse_cons, List.append_assoc] at h'
      exact ⟨h.1, h.2.append_reverse h'⟩

theorem ParentsFirst.parent?_mem {c p : Class} : ∀ {l seen : List Class}, ParentsFirst seen l →
    c ∈ l → c.parent? = some p → p ∈ l ∨ p ∈ seen
  | e :: es, seen, h, hc, hp => by
      rcases List.mem_cons.mp hc with rfl | hc
      · exact Or.inr (h.1 p hp)
      · rcases h.2.parent?_mem hc hp with hmem | hmem
        · exact Or.inl (List.mem_cons_of_mem e hmem)
        · rcases List.mem_cons.mp hmem with rfl | hmem
          · exact Or.inl List.mem_cons_self
          · exact Or.inr hmem

section Built

variable {d : Declarations} {h : Hierarchy} {needs : String → List String} {l : List String}

theorem parentsFirst_liveClasses (hb : d.build = .ok h) : ParentsFirst [] h.liveClasses := by
  obtain ⟨defs, hres, hclasses, -⟩ := exists_resolved_of_build hb
  rw [Hierarchy.liveClasses, hclasses]
  exact hres.parentsFirst_live

/-- Parcels that come after those that they inherit from have parents first. -/
theorem parentsFirst_liveIn (hb : d.build = .ok h) (hl : NeedsFirst needs l)
    (hneeds : ∀ n ∈ l, ∀ c ∈ h.liveIn n, ∀ p, c.parent? = some p →
      p.parcel.name = n ∨ p.parcel.name ∈ needs n) :
    ParentsFirst [] (l.flatMap h.liveIn) := by
  induction l using List.reverseRecOn with
  | nil => trivial
  | append_singleton l n ih =>
      rw [List.flatMap_append, List.flatMap_singleton]
      have hfront := ih hl.of_append fun m hm => hneeds m (List.mem_append_left _ hm)
      have hall := parentsFirst_liveClasses hb
      have hlast : ParentsFirst ((l.flatMap h.liveIn).reverse ++ []) (h.liveIn n) := by
        rw [List.append_nil]
        show ParentsFirst ([].filter (·.parcel.name == n) ++ (l.flatMap h.liveIn).reverse) _
        refine ParentsFirst.filter_after (fun c hc hkeep p hp => ?_) hall
        have hc' : c ∈ h.liveIn n := List.mem_filter.mpr ⟨hc, hkeep⟩
        rcases hneeds n (List.mem_append_right _ List.mem_cons_self) c hc' p hp with hn | hn
        · exact Or.inl (beq_iff_eq.mpr hn)
        · right
          have hlive : p ∈ h.liveClasses := (hall.parent?_mem hc hp).resolve_right List.not_mem_nil
          have hbefore : p.parcel.name ∈ l := hl l n [] rfl _ hn
          rw [List.mem_reverse, List.mem_flatMap]
          exact ⟨_, hbefore, Hierarchy.mem_liveIn.mpr ⟨hlive, rfl⟩⟩
      exact hfront.append_reverse hlast

theorem liveIn_names_nodup (hb : d.build = .ok h) (hl : l.Nodup) :
    ((l.flatMap h.liveIn).map fun c : Class => c.name).Nodup := by
  have hnd := liveClasses_names_nodup hb
  have hlive : ∀ c ∈ l.flatMap h.liveIn, c ∈ h.liveClasses := by
    intro c hc
    obtain ⟨n, -, hc⟩ := List.mem_flatMap.mp hc
    exact (Hierarchy.mem_liveIn.mp hc).1
  refine List.Nodup.map_on (fun c hc e he => ?_) ?_
  · exact List.inj_on_of_nodup_map hnd (hlive c hc) (hlive e he)
  · rw [List.nodup_flatMap]
    refine ⟨fun n _ => hnd.of_map.filter _, hl.imp fun {n k} hne c hc hc' => ?_⟩
    rw [Hierarchy.mem_liveIn] at hc hc'
    exact hne (hc.2.symm.trans hc'.2)

theorem mapM_flatMap {α β ε : Type} {f : α → Except ε β} {classes : String → List α}
    {specs : String → List β} : ∀ {l : List String},
      (∀ n ∈ l, (classes n).mapM f = .ok (specs n)) →
        (l.flatMap classes).mapM f = .ok (l.flatMap specs)
  | [], _ => rfl
  | n :: ns, h => by
      rw [List.forall_mem_cons] at h
      have htail := mapM_flatMap h.2
      rw [mapM_eq_ok_iff] at htail ⊢
      exact List.rel_append (mapM_eq_ok_iff.mp h.1) htail

/-- **Parcels that come after those that they inherit from load,** and every class becomes what its
lineage says. -/
theorem bootstrap_liveIn (hb : d.build = .ok h) (hnd : l.Nodup) (hl : NeedsFirst needs l)
    (hneeds : ∀ n ∈ l, ∀ c ∈ h.liveIn n, ∀ p, c.parent? = some p →
      p.parcel.name = n ∨ p.parcel.name ∈ needs n) {target : Target}
    {specsOf : String → List (ClassSpec String)}
    (hspecs : ∀ n ∈ l, (h.liveIn n).mapM (·.runtimeSpec target) = .ok (specsOf n)) :
    ({} : Registry String).bootstrap (l.flatMap specsOf) =
      .ok ⟨(l.flatMap h.liveIn).map (·.loaded target)⟩ := by
  obtain ⟨defs, hres, hclasses, -⟩ := exists_resolved_of_build hb
  have hdistinct : ∀ c ∈ l.flatMap h.liveIn, c.Distinct := by
    intro c hc
    obtain ⟨n, -, hc⟩ := List.mem_flatMap.mp hc
    have hlive := (List.mem_filter.mp (Hierarchy.mem_liveIn.mp hc).1).1
    exact hres.distinct (hclasses ▸ hlive)
  have hrun : (Registry.of target []).bootstrap (l.flatMap specsOf) =
      .ok (Registry.of target ((l.flatMap h.liveIn).reverse ++ [])) :=
    bootstrap_specs trivial (parentsFirst_liveIn hb hl hneeds)
      (liveIn_names_nodup hb hnd) hdistinct (mapM_flatMap hspecs)
  rwa [Registry.of, Registry.of, List.append_nil, List.reverse_reverse] at hrun

end Built

/-! ## Parcels that a hierarchy names -/

section Named

variable {d : Declarations} {h : Hierarchy} {p q : Parcel}

theorem parent_mem_of_build {c a : Class} (hb : d.build = .ok h) (hc : c ∈ h.classes)
    (ha : c.parent? = some a) : a ∈ h.classes := by
  obtain ⟨defs, -, hclasses, -⟩ := exists_resolved_of_build hb
  rw [hclasses] at hc ⊢
  exact ((parentsFirst_preorder defs).parent?_mem hc ha).resolve_right List.not_mem_nil

theorem inheritedParcels_subset (hb : d.build = .ok h) (hq : q ∈ h.inheritedParcels p) :
    q ∈ h.parcels := by
  rw [Hierarchy.inheritedParcels, List.mem_eraseDups, List.mem_filter, List.mem_map] at hq
  obtain ⟨⟨a, ha, rfl⟩, -⟩ := hq
  obtain ⟨c, hc, hca⟩ := List.mem_filterMap.mp ha
  exact parcel_mem_of_build hb (parent_mem_of_build hb (List.mem_filter.mp hc).1 hca)

theorem prereqsOf_subset (hq : q ∈ h.prereqsOf p) : q ∈ h.parcels := by
  rw [Hierarchy.prereqsOf, List.mem_filterMap] at hq
  obtain ⟨n, -, hn⟩ := hq
  exact List.mem_of_find?_eq_some hn

end Named

/-! ## A hierarchy in a runtime -/

namespace Runtime

variable {F : Type}

/-- Registering parcels under distinct names. -/
theorem after_register {ss : List (ParcelSpec F)} (hnd : (ss.map (·.name)).Nodup) :
    after (ss.map .register) = { parcels := ss.map fun s => { spec := s } } := by
  induction ss using List.reverseRecOn with
  | nil => rfl
  | append_singleton ss s ih =>
      rw [List.map_append, List.nodup_append'] at hnd
      obtain ⟨hnd, -, hdis⟩ := hnd
      rw [List.map_append, List.map_singleton, after_append_singleton, ih hnd, Call.run]
      have hnew : Runtime.parcel? { parcels := ss.map fun s => { spec := s } } s.name = none := by
        rw [parcel?, List.find?_map, Option.map_eq_none_iff]
        show ss.find? (fun t => t.name == s.name) = none
        rw [find?_key_eq_none_iff]
        exact fun hmem => hdis hmem List.mem_cons_self
      rw [registerParcel, hnew, List.map_append]
      rfl

theorem specs_after_register {ss : List (ParcelSpec F)} (hnd : (ss.map (·.name)).Nodup) :
    (after (ss.map .register)).specs = ss := by
  rw [after_register hnd, specs, List.map_map]
  exact List.map_id ss

/-- All parcels of a hierarchy are registered, each with an initializer, and no others. -/
structure Registered (h : Hierarchy) (target : Target) (r : Runtime String) : Prop where
  spec? : ∀ p ∈ h.parcels, ∃ classes, (h.liveIn p.name).mapM (·.runtimeSpec target) = .ok classes ∧
    r.spec? p.name = some
      { name := p.name
        inherited := (h.inheritedParcels p).map (·.name)
        prereqs := (h.prereqsOf p).map (·.name)
        classes
        hasInit := true }
  only : ∀ n ∈ r.specs.map (·.name), ∃ p ∈ h.parcels, p.name = n
  length : r.parcels.length = h.parcels.length

section Registered

variable {d : Declarations} {h : Hierarchy} {target : Target} {r r' : Runtime String}

theorem Registered.of_specs (hr : Registered h target r) (hspecs : r'.specs = r.specs) :
    Registered h target r' where
  spec? := by
    intro p hp
    rw [spec?_of_specs hspecs]
    exact hr.spec? p hp
  only := hspecs ▸ hr.only
  length := by
    have hlength := congrArg List.length hspecs
    rw [Runtime.specs, Runtime.specs, List.length_map, List.length_map] at hlength
    rw [hlength, hr.length]

theorem runtimeParcel_eq_ok_iff {p : Parcel} {s : ParcelSpec String} :
    h.runtimeParcel p target = .ok s ↔
      ∃ classes, (h.liveIn p.name).mapM (·.runtimeSpec target) = .ok classes ∧ s =
        { name := p.name
          inherited := (h.inheritedParcels p).map (·.name)
          prereqs := (h.prereqsOf p).map (·.name)
          classes } := by
  have hclasses : (h.classesOf p).filter (!·.inert) = h.liveIn p.name :=
    h.dynamicClassesOf_eq p
  rw [Hierarchy.runtimeParcel, hclasses, bind_eq_ok_iff]
  refine exists_congr fun classes => and_congr_right fun _ => ?_
  constructor
  · rintro ⟨⟩
    rfl
  · rintro rfl
    rfl

theorem runtimeParcel_names {specs : List (ParcelSpec String)}
    (hs : h.parcels.mapM (h.runtimeParcel · target) = .ok specs) :
    h.parcels.map (·.name) = specs.map (·.name) := by
  have hname : ∀ {p : Parcel} {s : ParcelSpec String}, h.runtimeParcel p target = .ok s →
      p.name = s.name := by
    intro p s hps
    obtain ⟨classes, -, rfl⟩ := runtimeParcel_eq_ok_iff.mp hps
    rfl
  rw [← List.forall₂_eq_eq_eq, List.forall₂_map_left_iff, List.forall₂_map_right_iff]
  exact (mapM_eq_ok_iff.mp hs).imp fun _ _ => hname

theorem runtimeParcel_names_nodup (hb : d.build = .ok h) {specs : List (ParcelSpec String)}
    (hs : h.parcels.mapM (h.runtimeParcel · target) = .ok specs) :
    (specs.map (·.name)).Nodup := by
  obtain ⟨defs, hres, -, -⟩ := exists_resolved_of_build hb
  exact runtimeParcel_names hs ▸ hres.parcelNames

theorem registered_after (hb : d.build = .ok h) {specs : List (ParcelSpec String)}
    (hs : h.parcels.mapM (h.runtimeParcel · target) = .ok specs) :
    Registered h target (after (specs.map fun s => .register { s with hasInit := true })) := by
  have hnames := runtimeParcel_names hs
  have hnd : ((specs.map fun s => { s with hasInit := true }).map (·.name)).Nodup := by
    rw [List.map_map]
    exact runtimeParcel_names_nodup hb hs
  have hspecs := specs_after_register hnd
  rw [List.map_map] at hspecs
  change (after (specs.map fun s => .register { s with hasInit := true })).specs = _ at hspecs
  constructor
  · intro p hp
    obtain ⟨s, hmem, hps⟩ := exists_mem_of_mapM hs hp
    obtain ⟨classes, hclasses, rfl⟩ := runtimeParcel_eq_ok_iff.mp hps
    refine ⟨classes, hclasses, ?_⟩
    rw [spec?_eq_find?, hspecs, find?_key_eq_some_iff hnd]
    exact ⟨List.mem_map.mpr ⟨_, hmem, rfl⟩, rfl⟩
  · intro n hn
    rw [hspecs, List.map_map] at hn
    exact List.mem_map.mp (hnames ▸ hn)
  · have hlength := congrArg List.length hnames
    rw [List.length_map, List.length_map] at hlength
    have hcount := congrArg List.length hspecs
    rwa [Runtime.specs, List.length_map, List.length_map, ← hlength] at hcount

end Registered

/-! ### Whether initializers are there or not -/

/-- All parcels of a hierarchy are registered as they are specified, with initializers or without
them, and no others. -/
structure Holds (h : Hierarchy) (target : Target) (r : Runtime String) : Prop where
  spec? : ∀ p ∈ h.parcels, ∃ classes hasInit,
    (h.liveIn p.name).mapM (·.runtimeSpec target) = .ok classes ∧ r.spec? p.name = some
      { name := p.name
        inherited := (h.inheritedParcels p).map (·.name)
        prereqs := (h.prereqsOf p).map (·.name)
        classes
        hasInit }
  only : ∀ n ∈ r.specs.map (·.name), ∃ p ∈ h.parcels, p.name = n

section Holds

variable {d : Declarations} {h : Hierarchy} {target : Target} {r r' : Runtime String} {p : Parcel}

theorem Registered.holds (hr : Registered h target r) : Holds h target r where
  spec? := by
    intro p hp
    obtain ⟨classes, hclasses, hspec⟩ := hr.spec? p hp
    exact ⟨classes, true, hclasses, hspec⟩
  only := hr.only

theorem Holds.of_specs (hr : Holds h target r) (hspecs : r'.specs = r.specs) :
    Holds h target r' where
  spec? := by
    intro p hp
    rw [spec?_of_specs hspecs]
    exact hr.spec? p hp
  only := hspecs ▸ hr.only

/-- The parcels of a hierarchy may be registered in any order. -/
theorem holds_of_perm (hb : d.build = .ok h) {specs : List (ParcelSpec String)}
    (hs : h.parcels.mapM (h.runtimeParcel · target) = .ok specs) (hperm : r.specs.Perm specs) :
    Holds h target r := by
  have hnd : (r.specs.map (·.name)).Nodup :=
    (hperm.map _).nodup_iff.mpr (runtimeParcel_names_nodup hb hs)
  constructor
  · intro p hp
    obtain ⟨s, hmem, hps⟩ := exists_mem_of_mapM hs hp
    obtain ⟨classes, hclasses, rfl⟩ := runtimeParcel_eq_ok_iff.mp hps
    refine ⟨classes, false, hclasses, ?_⟩
    rw [spec?_eq_find?, find?_key_eq_some_iff hnd]
    exact ⟨hperm.mem_iff.mpr hmem, rfl⟩
  · intro n hn
    rw [(hperm.map _).mem_iff, ← runtimeParcel_names hs] at hn
    exact List.mem_map.mp hn

theorem Holds.inheritedOf_eq (hr : Holds h target r) (hp : p ∈ h.parcels) :
    r.inheritedOf p.name = (h.inheritedParcels p).map (·.name) := by
  obtain ⟨classes, hasInit, -, hspec⟩ := hr.spec? p hp
  rw [inheritedOf, hspec]
  rfl

theorem Holds.prereqsOf_eq (hr : Holds h target r) (hp : p ∈ h.parcels) :
    r.prereqsOf p.name = (h.prereqsOf p).map (·.name) := by
  obtain ⟨classes, hasInit, -, hspec⟩ := hr.spec? p hp
  rw [Runtime.prereqsOf, hspec]
  rfl

/-- **The parcels of a hierarchy load in any order** in which those that are inherited from come
first. -/
theorem Holds.bootstrap (hb : d.build = .ok h) (hr : Holds h target r) {l : List String}
    (hnd : l.Nodup) (hl : NeedsFirst r.inheritedOf l) (hknown : ∀ n ∈ l, n ∈ r.specs.map (·.name)) :
    ({} : Registry String).bootstrap (l.flatMap r.classesOf) =
      .ok ⟨(l.flatMap h.liveIn).map (·.loaded target)⟩ := by
  have hneeds : ∀ n ∈ l, ∀ c ∈ h.liveIn n, ∀ q, c.parent? = some q →
      q.parcel.name = n ∨ q.parcel.name ∈ r.inheritedOf n := by
    intro n hn c hc q hq
    obtain ⟨p, hp, rfl⟩ := hr.only n (hknown n hn)
    rw [hr.inheritedOf_eq hp]
    exact Hierarchy.parcel_of_parent? hc hq
  have hclasses : ∀ n ∈ l, (h.liveIn n).mapM (·.runtimeSpec target) = .ok (r.classesOf n) := by
    intro n hn
    obtain ⟨p, hp, rfl⟩ := hr.only n (hknown n hn)
    obtain ⟨classes, hasInit, hmap, hspec⟩ := hr.spec? p hp
    rw [classesOf, hspec, hmap]
    rfl
  exact bootstrap_liveIn hb hnd hl hneeds hclasses

/-- **A hierarchy's classes are not refused,** whichever parcels have been loaded before. -/
theorem Ledger.accepts {past : List BootEvent} (hb : d.build = .ok h) (hr : Holds h target r)
    (hl : Ledger past r) {n : String} {s : ParcelSpec String} (hn : r.spec? n = some s)
    (hnew : ¬ r.Loaded n) (hinh : ∀ q ∈ s.inherited, r.Loaded q) :
    ∃ registry, r.registry.bootstrap s.classes = .ok registry := by
  have hnd : (loadedBy past ++ [n]).Nodup := by
    rw [← List.concat_eq_append, List.nodup_concat]
    exact ⟨fun hmem => hnew ((hl.loaded n).mpr hmem), hl.once⟩
  have hown : r.inheritedOf n = s.inherited := by
    rw [inheritedOf, hn]
    rfl
  have horder : NeedsFirst r.inheritedOf (loadedBy past ++ [n]) :=
    hl.order.concat fun q hq => (hl.loaded q).mp (hinh q (hown ▸ hq))
  have hknown : ∀ k ∈ loadedBy past ++ [n], k ∈ r.specs.map (·.name) := by
    intro k hk
    rw [← parcel?_isSome_iff]
    rcases List.mem_append.mp hk with hk | hk
    · exact ((hl.loaded k).mpr hk).parcel?_isSome
    · rw [List.mem_singleton.mp hk]
      rw [Runtime.spec?, Option.map_eq_some_iff] at hn
      obtain ⟨e, he, -⟩ := hn
      rw [he]
      rfl
  have hall := hr.bootstrap hb hnd horder hknown
  -- the registry in front of the last parcel is the one at hand
  have hfront := hl.registry
  have hlast : r.classesOf n = s.classes := by
    rw [classesOf, hn]
    rfl
  rw [List.flatMap_append, List.flatMap_singleton, hlast, Registry.bootstrap, List.foldlM_append,
    bind_eq_ok_iff] at hall
  obtain ⟨r₁, hr₁, hrest⟩ := hall
  rw [Registry.bootstrap, hr₁, Except.ok.injEq] at hfront
  exact ⟨_, hfront ▸ hrest⟩

/-- Behind the parcels that it inherits from, a parcel's classes are not refused. -/
theorem LoadRun.accepts {past evs : List BootEvent} {r₁ : Runtime String} {n : String}
    {e : ParcelEntry String} (hb : d.build = .ok h) (hr : Holds h target r) (hl : Ledger past r)
    (he : r.parcel? n = some e) (hs : e.state = .notStarted)
    (hsub : LoadRun e.spec.inherited (r.setState n .inheritanceInProgress) evs r₁ (.ok ())) :
    ∃ registry, r₁.registry.bootstrap e.spec.classes = .ok registry := by
  have hr' := hr.of_specs (hsub.specs.trans (specs_setState _))
  have hl' := hsub.ledger (hl.mark he hs)
  obtain ⟨hnew, hspec⟩ := hsub.marked he
  exact hl'.accepts hb hr' hspec hnew (hsub.loaded_of_ok rfl)

end Holds

end Runtime

end ClassTables
