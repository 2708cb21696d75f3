import ClassTables.Proofs.Build
/-!
# Well-formed declarations

What a programmer has to get right, said of the declarations alone: names, references, inheritance,
and what may be declared again.  The passes of `Declarations.build` see only part of this at a time
(a list of names, the flattened lists of the parent); together they accept exactly the well-formed
declarations (`build_isOk_iff_wellFormed`).
-/

namespace ClassTables

/-- Lineages of declarations. -/
abbrev DeclLineage (ds : List ClassDecl) : List ClassDecl → Prop :=
  Lineage (fun c : ClassDecl => c.name) (·.parent) ds

/-- The nearest of the given classes that declares a method, with its declaration. -/
def nearestDecl (n : String) (classes : List ClassDecl) : Option (ClassDecl × MethodDecl) :=
  classes.findSome? fun a => (a.methods.find? (·.name == n)).map (a, ·)

/-- Declarations without a fault. -/
structure Declarations.WellFormed (d : Declarations) : Prop where
  parcelNames : (d.parcels.map (·.name)).Nodup
  prereqs : ∀ p ∈ d.parcels, ∀ q ∈ p.prereqs, q ∈ d.parcels.map (·.name)
  classNames : (d.classes.map (·.name)).Nodup
  classParcels : ∀ c ∈ d.classes, c.parcel ∈ d.parcels.map (·.name)
  inertEmpty : ∀ c ∈ d.classes, c.inert = true → c.members = [] ∧ c.methods = []
  parents : ∀ c ∈ d.classes, ∀ n, c.parent = some n →
    ∃ p ∈ d.classes, p.name = n ∧ p.inert = false
  acyclic : Acyclic (fun c : ClassDecl => c.name) (·.parent) d.classes
  /-- On the way up from a class no member name comes twice. -/
  members : ∀ l, DeclLineage d.classes l → (l.flatMap fun c => c.members.map (·.name)).Nodup
  methods : ∀ c ∈ d.classes, (c.methods.map (·.name)).Nodup
  /-- What the nearest ancestor declares may be declared again unless it is final, with as many
  parameters.  A method of a final class is final. -/
  overrides : ∀ c above, DeclLineage d.classes (c :: above) → ∀ m ∈ c.methods, ∀ a old,
    nearestDecl m.name above = some (a, old) →
      old.isFinal = false ∧ a.isFinal = false ∧ old.params.length = m.params.length

/-! ## Resolving lineages -/

/-- The classes that declarations make among the given parcels. -/
abbrev resolveAll (parcels : List Parcel) (ds : List ClassDecl) : List ClassDef :=
  ds.map (·.resolveIn parcels)

theorem resolveAll_cons (parcels : List Parcel) (c : ClassDecl) (l : List ClassDecl) :
    resolveAll parcels (c :: l) = c.resolveIn parcels :: resolveAll parcels l := rfl

theorem defLineage_resolveAll (parcels : List Parcel) {ds l : List ClassDecl}
    (h : DeclLineage ds l) : DefLineage (resolveAll parcels ds) (resolveAll parcels l) :=
  h.map (f := fun c : ClassDecl => c.resolveIn parcels) (fun _ => rfl) fun _ => rfl

theorem exists_declLineage {parcels : List Parcel} {ds : List ClassDecl} {l : List ClassDef}
    (h : DefLineage (resolveAll parcels ds) l) :
    ∃ l₀, DeclLineage ds l₀ ∧ resolveAll parcels l₀ = l :=
  Lineage.of_map (fun _ => rfl) (fun _ => rfl) h

theorem exists_declLineage_cons {parcels : List Parcel} {ds : List ClassDecl} {e : ClassDef}
    {above : List ClassDef} (h : DefLineage (resolveAll parcels ds) (e :: above)) :
    ∃ c above₀, DeclLineage ds (c :: above₀) ∧ c.resolveIn parcels = e ∧
      resolveAll parcels above₀ = above := by
  obtain ⟨l, hl, heq⟩ := exists_declLineage h
  cases l with
  | nil => simp at heq
  | cons c above₀ => exact ⟨c, above₀, hl, List.cons.inj heq⟩

/-! ## Members -/

/-- The members of a class are those declared on its lineage, the oldest class first. -/
theorem memberList_eq_flatMap : ∀ l : List ClassDef,
    memberList l = l.reverse.flatMap (·.ownMembers)
  | [] => rfl
  | d :: ds => by
      rw [memberList, memberList_eq_flatMap ds, List.reverse_cons, List.flatMap_append,
        List.flatMap_singleton]

theorem memberList_names_nodup_iff {parcels : List Parcel} {l : List ClassDecl} :
    ((memberList (resolveAll parcels l)).map (·.name)).Nodup ↔
      (l.flatMap fun c => c.members.map (·.name)).Nodup := by
  have hperm : (resolveAll parcels l).reverse.Perm (resolveAll parcels l) :=
    List.reverse_perm _
  rw [memberList_eq_flatMap, ((hperm.flatMap_right _).map _).nodup_iff, List.map_flatMap,
    List.flatMap_map]
  simp only [ClassDecl.resolveIn_ownMembers, List.map_map]
  rfl

/-- Checking every class against its parent's members keeps all lists of members distinct. -/
theorem forall_members_fresh_iff {defs : List ClassDef} (hnd : DistinctDefs defs) :
    (∀ c ∈ preorder defs,
      FreshNames (fun v : Variable => v.name) ((memberList c.above).map (·.name)) c.ownMembers) ↔
      ∀ l, DefLineage defs l → ((memberList l).map (·.name)).Nodup := by
  constructor
  · intro h l hl
    have hstep : ∀ {d ds}, DefLineage defs (d :: ds) → ((memberList ds).map (·.name)).Nodup →
        ((memberList (d :: ds)).map (·.name)).Nodup := by
      intro d ds hd hds
      rw [memberList, List.map_append, nodup_append_iff_freshNames]
      exact ⟨hds, h ⟨d, ds⟩ ((mem_preorder_iff hnd).mpr hd)⟩
    -- each class of the lineage was checked against those above it
    induction hl with
    | root hc hp => exact hstep (.root hc hp) List.nodup_nil
    | child hc hp hl ih => exact hstep (.child hc hp hl) ih
  · intro h c hc
    have hl := h c.lineage ((mem_preorder_iff hnd).mp hc)
    rw [Class.lineage, memberList, List.map_append, nodup_append_iff_freshNames] at hl
    exact hl.2

/-! ## Methods -/

/-- What an override is checked against: whether the nearest declaration is final, and its
parameters. -/
theorem nearest_map_resolveIn (parcels : List Parcel) (n : String) : ∀ l : List ClassDecl,
    ((Class.ofLineage (resolveAll parcels l)).findSome? fun a =>
        a.freshMethods.find? (·.name == n)).map (fun m => (m.isFinal, m.params.length)) =
      (nearestDecl n l).map fun (a, m) => (m.isFinal || a.isFinal, m.params.length + 1)
  | [] => rfl
  | c :: l => by
      have hfind : ((⟨c.resolveIn parcels, resolveAll parcels l⟩ : Class).freshMethods.find?
          (·.name == n)) = (c.methods.find? (·.name == n)).map
            ((c.resolveIn parcels).declare (methodList (resolveAll parcels l))) := by
        show ((c.resolveIn parcels).fresh _).find? _ = _
        rw [ClassDef.fresh, List.find?_map, ClassDecl.resolveIn_ownMethods]
        rfl
      rw [resolveAll_cons, Class.ofLineage, List.findSome?_cons, nearestDecl, List.findSome?_cons, hfind]
      cases c.methods.find? (·.name == n) with
      | none => exact nearest_map_resolveIn parcels n l
      | some m => simp [ClassDef.declare]

/-- Nothing in the way of an override, said of the flattened list and of the declarations. -/
theorem checkOverride_iff_nearestDecl {parcels : List Parcel} {l : List ClassDecl}
    (hdist : MethodsDistinct (resolveAll parcels l)) {cls : String} {m : MethodDecl} :
    checkOverride cls (methodList (resolveAll parcels l)) m = .ok () ↔
      ∀ a old, nearestDecl m.name l = some (a, old) →
        old.isFinal = false ∧ a.isFinal = false ∧ old.params.length = m.params.length := by
  have hmap := nearest_map_resolveIn parcels m.name l
  rw [checkOverride_eq_ok_iff, find?_methodList hdist]
  cases hnear : nearestDecl m.name l with
  | none =>
      rw [hnear, Option.map_none, Option.map_eq_none_iff] at hmap
      rw [hmap]
      exact ⟨fun _ _ _ h => (nomatch h), fun _ _ h => (nomatch h)⟩
  | some found =>
      obtain ⟨a, old⟩ := found
      rw [hnear, Option.map_some, Option.map_eq_some_iff] at hmap
      obtain ⟨e, he, heq⟩ := hmap
      obtain ⟨hfinal, hparams⟩ := Prod.mk.inj heq
      rw [he]
      constructor
      · rintro h _ _ ⟨⟩
        obtain ⟨hf, hp⟩ := h e rfl
        rw [hfinal, Bool.or_eq_false_iff] at hf
        exact ⟨hf.1, hf.2, by omega⟩
      · rintro h _ ⟨⟩
        obtain ⟨hf, ha, hp⟩ := h a old rfl
        exact ⟨by rw [hfinal, hf, ha]; rfl, by omega⟩

/-! ## Lineages of declarations -/

/-- **The classes of a hierarchy are the lineages of declarations,** resolved among its parcels. -/
theorem mem_classes_iff {d : Declarations} {h : Hierarchy} (hb : d.build = .ok h) {c : Class} :
    c ∈ h.classes ↔ ∃ l, DeclLineage d.classes l ∧ resolveAll h.parcels l = c.lineage := by
  obtain ⟨defs, -, hdefs, -, hord, -⟩ := build_eq_ok_iff.mp hb
  obtain ⟨hfresh, -, -, rfl⟩ := resolveClasses_eq_ok_iff.mp hdefs
  have hnd : DistinctDefs (resolveAll h.parcels d.classes) := by
    rw [DistinctDefs, ClassDecl.resolveIn_names]
    exact freshNames_nil_iff.mp hfresh
  rw [((order_eq_ok_iff hnd).mp hord).1, mem_preorder_iff hnd]
  constructor
  · exact exists_declLineage
  · rintro ⟨l, hl, heq⟩
    exact heq ▸ defLineage_resolveAll h.parcels hl

/-! ## The builder accepts what is well-formed -/

section Iff

variable {parcels : List Parcel} {ds : List ClassDecl}

theorem acyclic_iff_defLineage (parcels : List Parcel) (hnd : (ds.map (·.name)).Nodup)
    (hparents : ∀ c ∈ ds, ∀ n, c.parent = some n → ∃ p ∈ ds, p.name = n ∧ p.inert = false) :
    Acyclic (fun c : ClassDecl => c.name) (·.parent) ds ↔
      ∀ e ∈ resolveAll parcels ds,
        ∃ above, DefLineage (resolveAll parcels ds) (e :: above) := by
  have hknown : ParentsKnown (fun c : ClassDecl => c.name) (·.parent) ds := by
    intro c hc n hn
    obtain ⟨p, hp, hname, _⟩ := hparents c hc n hn
    exact ⟨p, hp, hname⟩
  rw [acyclic_iff_lineage hnd hknown, List.forall_mem_map]
  refine forall₂_congr fun c hc => ?_
  constructor
  · rintro ⟨above, h⟩
    exact ⟨_, defLineage_resolveAll parcels h⟩
  · rintro ⟨above, h⟩
    obtain ⟨b, above₀, hl, hb, -⟩ := exists_declLineage_cons h
    have hbc : b = c := eq_of_name_eq hnd hl.mem_of_head hc (congrArg (·.name) hb)
    exact ⟨above₀, hbc ▸ hl⟩

/-- The classes of the preorder are those at the head of lineages of declarations. -/
theorem forall_preorder_iff (hnd : DistinctDefs (resolveAll parcels ds))
    {P : Class → Prop} :
    (∀ c ∈ preorder (resolveAll parcels ds), P c) ↔
      ∀ c above, DeclLineage ds (c :: above) →
        P ⟨c.resolveIn parcels, resolveAll parcels above⟩ := by
  constructor
  · intro h c above hl
    exact h _ ((mem_preorder_iff hnd).mpr (defLineage_resolveAll parcels hl))
  · rintro h ⟨e, above⟩ hc
    obtain ⟨b, above₀, hl, rfl, rfl⟩ := exists_declLineage_cons ((mem_preorder_iff hnd).mp hc)
    exact h b above₀ hl

theorem forall_members_nodup_iff (parcels : List Parcel) (ds : List ClassDecl) :
    (∀ l, DefLineage (resolveAll parcels ds) l → ((memberList l).map (·.name)).Nodup) ↔
      ∀ l, DeclLineage ds l → (l.flatMap fun c => c.members.map (·.name)).Nodup := by
  constructor
  · intro h l hl
    exact memberList_names_nodup_iff.mp (h _ (defLineage_resolveAll parcels hl))
  · intro h l hl
    obtain ⟨l₀, hl₀, rfl⟩ := exists_declLineage hl
    exact memberList_names_nodup_iff.mpr (h l₀ hl₀)

/-- Where every class has a lineage, the preorder leaves no declared class out. -/
theorem forall_preorder_methods_iff (hnd : DistinctDefs (resolveAll parcels ds))
    (hlin : ∀ e ∈ resolveAll parcels ds,
      ∃ above, DefLineage (resolveAll parcels ds) (e :: above)) :
    (∀ c ∈ preorder (resolveAll parcels ds), (c.ownMethods.map (·.name)).Nodup) ↔
      ∀ c ∈ ds, (c.methods.map (·.name)).Nodup := by
  rw [forall_preorder_iff hnd]
  constructor
  · intro h c hc
    obtain ⟨above, hl⟩ := hlin _ (List.mem_map_of_mem hc)
    obtain ⟨b, above₀, hl₀, hb, -⟩ := exists_declLineage_cons hl
    have hnodup := h b above₀ hl₀
    rwa [hb] at hnodup
  · intro h c _ hl
    exact h c hl.mem_of_head

/-- The checks against what is inherited, on the whole forest. -/
theorem forall_check_iff (hnd : DistinctDefs (resolveAll parcels ds))
    (hlin : ∀ e ∈ resolveAll parcels ds,
      ∃ above, DefLineage (resolveAll parcels ds) (e :: above)) :
    (∀ c ∈ preorder (resolveAll parcels ds), c.check = .ok ()) ↔
      (∀ l, DeclLineage ds l → (l.flatMap fun c => c.members.map (·.name)).Nodup) ∧
        (∀ c ∈ ds, (c.methods.map (·.name)).Nodup) ∧
          ∀ c above, DeclLineage ds (c :: above) → ∀ m ∈ c.methods, ∀ a old,
            nearestDecl m.name above = some (a, old) →
              old.isFinal = false ∧ a.isFinal = false ∧ old.params.length = m.params.length := by
  have hsplit : (∀ c ∈ preorder (resolveAll parcels ds), c.check = .ok ()) ↔
      (∀ c ∈ preorder (resolveAll parcels ds), FreshNames (fun v : Variable => v.name)
        ((memberList c.above).map (·.name)) c.ownMembers) ∧
      (∀ c ∈ preorder (resolveAll parcels ds), (c.ownMethods.map (·.name)).Nodup) ∧
      ∀ c ∈ preorder (resolveAll parcels ds), ∀ m ∈ c.ownMethods,
        checkOverride c.name (methodList c.above) m = .ok () := by
    simp only [Class.check_eq_ok_iff, forall₂_and]
  rw [hsplit, forall_members_fresh_iff hnd, forall_members_nodup_iff,
    forall_preorder_methods_iff hnd hlin, forall_preorder_iff hnd]
  refine and_congr_right fun _ => and_congr_right fun hdist => ?_
  refine forall₃_congr fun c above hl => forall₂_congr fun m _ => ?_
  -- the classes above declare no method twice either
  refine checkOverride_iff_nearestDecl fun e he => ?_
  obtain ⟨b, hb, rfl⟩ := List.mem_map.mp he
  exact hdist b (hl.mem b (List.mem_cons_of_mem _ hb))

end Iff

/-- **The builder accepts exactly the well-formed declarations.** -/
theorem build_isOk_iff_wellFormed (d : Declarations) : (∃ h, d.build = .ok h) ↔ d.WellFormed := by
  constructor
  · rintro ⟨h, hb⟩
    obtain ⟨defs, hps, hdefs, hpar, hord, hchk, _⟩ := build_eq_ok_iff.mp hb
    obtain ⟨hpnd, hpre, hpeq⟩ := resolveParcels_eq_ok_iff.mp hps
    obtain ⟨hfresh, hparcel, hempty, rfl⟩ := resolveClasses_eq_ok_iff.mp hdefs
    have hcnd := freshNames_nil_iff.mp hfresh
    have hnd : DistinctDefs (resolveAll h.parcels d.classes) := by
      rwa [DistinctDefs, ClassDecl.resolveIn_names]
    rw [checkParents_eq_ok_iff hnd, List.forall_mem_map] at hpar
    obtain ⟨hclasses, hlin⟩ := (order_eq_ok_iff hnd).mp hord
    have hparents : ∀ c ∈ d.classes, ∀ n, c.parent = some n →
        ∃ p ∈ d.classes, p.name = n ∧ p.inert = false := by
      intro c hc n hn
      obtain ⟨e, he, hname, hinert⟩ := hpar c hc n hn
      obtain ⟨p, hp, rfl⟩ := List.mem_map.mp he
      exact ⟨p, hp, hname, hinert⟩
    obtain ⟨hmem, hmeth, hover⟩ := (forall_check_iff hnd hlin).mp (hclasses ▸ hchk)
    rw [hpeq, resolveParcels_names] at hparcel
    exact ⟨hpnd, hpre, hcnd, hparcel, hempty, hparents,
      (acyclic_iff_defLineage h.parcels hcnd hparents).mpr hlin, hmem, hmeth, hover⟩
  · intro hwf
    have hparcel : ∀ c ∈ d.classes,
        c.parcel ∈ (d.parcels.map ParcelDecl.resolve).map (·.name) := by
      rw [resolveParcels_names]
      exact hwf.classParcels
    have hnd : DistinctDefs (resolveAll (d.parcels.map ParcelDecl.resolve) d.classes) := by
      rw [DistinctDefs, ClassDecl.resolveIn_names]
      exact hwf.classNames
    have hlin := (acyclic_iff_defLineage (d.parcels.map ParcelDecl.resolve)
      hwf.classNames hwf.parents).mp hwf.acyclic
    refine ⟨⟨d.parcels.map ParcelDecl.resolve, _, preorder _⟩, build_eq_ok_iff.mpr
      ⟨resolveAll (d.parcels.map ParcelDecl.resolve) d.classes,
      resolveParcels_eq_ok_iff.mpr ⟨hwf.parcelNames, hwf.prereqs, rfl⟩,
      resolveClasses_eq_ok_iff.mpr ⟨freshNames_nil_iff.mpr hwf.classNames, hparcel,
        hwf.inertEmpty, rfl⟩,
      (checkParents_eq_ok_iff hnd).mpr ?_, (order_eq_ok_iff hnd).mpr ⟨rfl, hlin⟩,
      (forall_check_iff hnd hlin).mpr ⟨hwf.members, hwf.methods, hwf.overrides⟩, rfl⟩⟩
    intro e he n hn
    obtain ⟨c, hc, rfl⟩ := List.mem_map.mp he
    obtain ⟨p, hp, hname, hinert⟩ := hwf.parents c hc n hn
    exact ⟨_, List.mem_map_of_mem hp, hname, hinert⟩

end ClassTables
