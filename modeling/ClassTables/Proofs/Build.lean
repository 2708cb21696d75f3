import ClassTables.Hierarchy.Build
import ClassTables.Proofs.Methods
/-!
# When the passes of a build agree

`Declarations.build` runs its passes one after the other.  Each pass has one lemma here that says
exactly when it passes and what it then returns; `build_eq_ok_iff` puts them together.  Everything
else about a hierarchy that was built starts from `Resolved`, which lists what its resolved classes
satisfy.
-/

namespace ClassTables

/-! ## Parcels -/

theorem checkParcelNames_eq_ok_iff : ∀ {ds : List ParcelDecl} {seen : List String},
    checkParcelNames seen ds = .ok () ↔ FreshNames (fun d : ParcelDecl => d.name) seen ds
  | [], seen => by simp [checkParcelNames]
  | d :: ds, seen => by
      rw [checkParcelNames, freshNames_cons, ← checkParcelNames_eq_ok_iff]
      by_cases h : d.name ∈ seen
      · simp [h]
      · simp [h]

theorem checkPrereqs_eq_ok_iff {known : List String} {ds : List ParcelDecl} :
    checkPrereqs known ds = .ok () ↔ ∀ d ∈ ds, ∀ q ∈ d.prereqs, q ∈ known := by
  rw [checkPrereqs, forM_eq_ok_iff]
  refine forall₂_congr fun d _ => ?_
  rw [forM_eq_ok_iff]
  refine forall₂_congr fun q _ => ?_
  by_cases h : q ∈ known
  · simp [h]
  · simp [h]

theorem resolveParcels_eq_ok_iff {ds : List ParcelDecl} {ps : List Parcel} :
    resolveParcels ds = .ok ps ↔
      (ds.map (·.name)).Nodup ∧ (∀ d ∈ ds, ∀ q ∈ d.prereqs, q ∈ ds.map (·.name)) ∧
        ps = ds.map ParcelDecl.resolve := by
  rw [resolveParcels, unit_bind_eq_ok_iff, unit_bind_eq_ok_iff, checkParcelNames_eq_ok_iff,
    freshNames_nil_iff, checkPrereqs_eq_ok_iff]
  refine and_congr_right fun _ => and_congr_right fun _ => ?_
  exact ⟨fun h => (Except.ok.inj h).symm, fun h => congrArg _ h.symm⟩

theorem resolveParcels_names (ds : List ParcelDecl) :
    (ds.map ParcelDecl.resolve).map (·.name) = ds.map (·.name) := by
  rw [List.map_map]
  rfl

/-! ## Classes -/

/-- The class that a declaration makes among the given parcels, one of which it names. -/
def ClassDecl.resolveIn (parcels : List Parcel) (d : ClassDecl) : ClassDef :=
  d.resolve ((parcels.find? (·.name == d.parcel)).getD ⟨d.parcel, d.parcel, false, []⟩)

section ResolveIn

variable (parcels : List Parcel) (d : ClassDecl)

@[simp] theorem ClassDecl.resolveIn_name : (d.resolveIn parcels).name = d.name := rfl

@[simp] theorem ClassDecl.resolveIn_parentName : (d.resolveIn parcels).parentName = d.parent := rfl

@[simp] theorem ClassDecl.resolveIn_inert : (d.resolveIn parcels).inert = d.inert := rfl

@[simp] theorem ClassDecl.resolveIn_isFinal : (d.resolveIn parcels).isFinal = d.isFinal := rfl

@[simp] theorem ClassDecl.resolveIn_ownMethods : (d.resolveIn parcels).ownMethods = d.methods := rfl

@[simp] theorem ClassDecl.resolveIn_ownMembers :
    (d.resolveIn parcels).ownMembers = d.members.map TypedName.resolve := rfl

theorem ClassDecl.resolveIn_names (ds : List ClassDecl) :
    (ds.map (·.resolveIn parcels)).map (fun e : ClassDef => e.name) = ds.map (·.name) := by
  rw [List.map_map]
  rfl

@[simp] theorem ClassDecl.resolveIn_parcel_name : (d.resolveIn parcels).parcel.name = d.parcel := by
  show ((parcels.find? (·.name == d.parcel)).getD _).name = d.parcel
  cases hp : parcels.find? (·.name == d.parcel) with
  | none => rfl
  | some p => simpa using List.find?_some hp

variable {parcels d}

/-- The parcel of a resolved class is one of the given parcels, if the declared one is. -/
theorem ClassDecl.resolveIn_parcel_mem (h : d.parcel ∈ parcels.map (·.name)) :
    (d.resolveIn parcels).parcel ∈ parcels ∧ (d.resolveIn parcels).parcel.name = d.parcel := by
  obtain ⟨p, hp⟩ := exists_find?_key_iff.mpr h
  have hparcel : (d.resolveIn parcels).parcel = p := by
    show (parcels.find? (·.name == d.parcel)).getD _ = p
    rw [hp]
    rfl
  rw [hparcel]
  exact ⟨List.mem_of_find?_eq_some hp, by simpa using List.find?_some hp⟩

end ResolveIn

/-- An inert class is declared with neither members nor methods. -/
def ClassDecl.InertEmpty (d : ClassDecl) : Prop := d.inert = true → d.members = [] ∧ d.methods = []

theorem ClassDecl.inertEmpty_iff {d : ClassDecl} :
    d.InertEmpty ↔ (d.inert && d.hasInstanceData) = false := by
  cases h : d.inert <;> simp [ClassDecl.InertEmpty, ClassDecl.hasInstanceData, h]

theorem resolveClasses_eq_ok_iff {parcels : List Parcel} :
    ∀ {ds : List ClassDecl} {seen : List String} {defs : List ClassDef},
      resolveClasses parcels seen ds = .ok defs ↔
        FreshNames (fun d : ClassDecl => d.name) seen ds ∧
          (∀ d ∈ ds, d.parcel ∈ parcels.map (·.name)) ∧ (∀ d ∈ ds, d.InertEmpty) ∧
            defs = ds.map (·.resolveIn parcels)
  | [], seen, defs => by simp [resolveClasses, eq_comm]
  | d :: ds, seen, defs => by
      rw [resolveClasses, freshNames_cons, List.forall_mem_cons, List.forall_mem_cons,
        List.map_cons]
      by_cases hseen : d.name ∈ seen
      · simp [hseen]
      · rw [if_neg hseen]
        cases hp : parcels.find? (·.name == d.parcel) with
        | none => simp [find?_key_eq_none_iff.mp hp]
        | some p =>
            have hmem : d.parcel ∈ parcels.map (·.name) := exists_find?_key_iff.mp ⟨p, hp⟩
            have hd : d.resolveIn parcels = d.resolve p := by rw [ClassDecl.resolveIn, hp]; rfl
            show (if (d.inert && d.hasInstanceData) = true then _ else _) = _ ↔ _
            by_cases hinert : d.InertEmpty
            · rw [if_neg (by rw [ClassDecl.inertEmpty_iff.mp hinert]; simp), map_eq_ok_iff, hd]
              simp only [resolveClasses_eq_ok_iff]
              constructor
              · rintro ⟨_, ⟨hfresh, hparcel, hempty, rfl⟩, rfl⟩
                exact ⟨⟨hseen, hfresh⟩, ⟨hmem, hparcel⟩, ⟨hinert, hempty⟩, rfl⟩
              · rintro ⟨⟨_, hfresh⟩, ⟨_, hparcel⟩, ⟨_, hempty⟩, rfl⟩
                exact ⟨_, ⟨hfresh, hparcel, hempty, rfl⟩, rfl⟩
            · have hdata : (d.inert && d.hasInstanceData) = true := by
                rwa [ClassDecl.inertEmpty_iff, Bool.not_eq_false] at hinert
              rw [if_pos hdata]
              exact ⟨fun h => (nomatch h), fun h => absurd h.2.2.1.1 hinert⟩

theorem checkParents_eq_ok_iff {defs : List ClassDef} (hnd : DistinctDefs defs) :
    checkParents defs = .ok () ↔
      ∀ d ∈ defs, ∀ n, d.parentName = some n → ∃ p ∈ defs, p.name = n ∧ p.inert = false := by
  rw [checkParents, forM_eq_ok_iff]
  refine forall₂_congr fun d _ => ?_
  cases hp : d.parentName with
  | none => simp
  | some n =>
      dsimp only
      cases hfind : defs.find? (fun p : ClassDef => p.name == n) with
      | none =>
          have hnone : n ∉ defs.map fun p : ClassDef => p.name := find?_key_eq_none_iff.mp hfind
          constructor
          · intro h
            exact nomatch h
          · intro h
            obtain ⟨p, hp, hname, _⟩ := h n rfl
            exact absurd (hname ▸ List.mem_map_of_mem hp) hnone
      | some p =>
          obtain ⟨hpd, hname⟩ := (find?_key_eq_some_iff hnd).mp hfind
          constructor
          · intro h n' hn'
            cases hn'
            refine ⟨p, hpd, hname, ?_⟩
            by_contra hinert
            rw [Bool.not_eq_false] at hinert
            simp [hinert] at h
          · intro h
            obtain ⟨q, hq, hqname, hinert⟩ := h n rfl
            rw [eq_of_name_eq hnd hpd hq (hname.trans hqname.symm)]
            simp [hinert]

/-! ## Against what is inherited -/

theorem checkMembers_eq_ok_iff {cls : String} : ∀ {vs : List Variable} {seen : List String},
    checkMembers cls seen vs = .ok () ↔ FreshNames (fun v : Variable => v.name) seen vs
  | [], seen => by simp [checkMembers]
  | v :: vs, seen => by
      rw [checkMembers, freshNames_cons]
      by_cases h : v.name ∈ seen
      · simp [h]
      · simp [h, checkMembers_eq_ok_iff]

/-- A declaration may take the place of an inherited method that is not final and has as many
parameters; the object itself is counted for the inherited one only. -/
theorem checkOverride_eq_ok_iff {cls : String} {inherited : List Method} {m : MethodDecl} :
    checkOverride cls inherited m = .ok () ↔
      ∀ old, inherited.find? (·.name == m.name) = some old →
        old.isFinal = false ∧ old.params.length = m.params.length + 1 := by
  rw [checkOverride]
  cases inherited.find? (·.name == m.name) with
  | none => simp
  | some old =>
      by_cases hfinal : old.isFinal = true
      · simp [hfinal]
      · by_cases hparams : old.params.length = m.params.length + 1
        · simp [hfinal, hparams]
        · simp [hfinal, hparams]

theorem checkMethods_eq_ok_iff {cls : String} {inherited : List Method} :
    ∀ {ms : List MethodDecl} {seen : List String},
      checkMethods cls inherited seen ms = .ok () ↔
        FreshNames (fun m : MethodDecl => m.name) seen ms ∧
          ∀ m ∈ ms, checkOverride cls inherited m = .ok ()
  | [], seen => by simp [checkMethods]
  | m :: ms, seen => by
      rw [checkMethods, freshNames_cons, List.forall_mem_cons]
      by_cases h : m.name ∈ seen
      · simp [h]
      · rw [if_neg h, unit_bind_eq_ok_iff, checkMethods_eq_ok_iff]
        constructor
        · rintro ⟨hm, hfresh, hms⟩
          exact ⟨⟨h, hfresh⟩, hm, hms⟩
        · rintro ⟨⟨_, hfresh⟩, hm, hms⟩
          exact ⟨hm, hfresh, hms⟩

theorem Class.check_eq_ok_iff {c : Class} :
    c.check = .ok () ↔
      FreshNames (fun v : Variable => v.name) ((memberList c.above).map (·.name)) c.ownMembers ∧
        (c.ownMethods.map (·.name)).Nodup ∧
          ∀ m ∈ c.ownMethods, checkOverride c.name (methodList c.above) m = .ok () := by
  rw [Class.check, unit_bind_eq_ok_iff, checkMembers_eq_ok_iff, checkMethods_eq_ok_iff,
    freshNames_nil_iff]

/-! ## The whole -/

theorem build_eq_ok_iff {d : Declarations} {h : Hierarchy} :
    d.build = .ok h ↔ ∃ defs, resolveParcels d.parcels = .ok h.parcels ∧
      resolveClasses h.parcels [] d.classes = .ok defs ∧ checkParents defs = .ok () ∧
        order defs = .ok h.classes ∧ (∀ c ∈ h.classes, c.check = .ok ()) ∧
          h.declared = defs.map (fun e : ClassDef => e.name) := by
  simp only [Declarations.build, bind_eq_ok_iff (α := List _), unit_bind_eq_ok_iff, forM_eq_ok_iff]
  obtain ⟨parcels, declared, classes⟩ := h
  constructor
  · rintro ⟨_, hps, defs, hdefs, hpar, _, hord, hchk, ⟨⟩⟩
    exact ⟨defs, hps, hdefs, hpar, hord, hchk, rfl⟩
  · rintro ⟨defs, hps, hdefs, hpar, hord, hchk, rfl⟩
    exact ⟨_, hps, defs, hdefs, hpar, _, hord, hchk, rfl⟩

/-- What the resolved classes of a hierarchy satisfy. -/
structure Resolved (parcels : List Parcel) (defs : List ClassDef) : Prop where
  parcelNames : (parcels.map (·.name)).Nodup
  names : DistinctDefs defs
  parcel : ∀ d ∈ defs, d.parcel ∈ parcels
  inertEmpty : ∀ d ∈ defs, d.inert = true → d.ownMembers = [] ∧ d.ownMethods = []
  parent : ∀ d ∈ defs, ∀ n, d.parentName = some n → ∃ p ∈ defs, p.name = n ∧ p.inert = false
  lineage : ∀ d ∈ defs, ∃ above, DefLineage defs (d :: above)
  check : ∀ c ∈ preorder defs, c.check = .ok ()

/-- **A hierarchy that was built is the preorder of resolved classes.** -/
theorem exists_resolved_of_build {d : Declarations} {h : Hierarchy} (hb : d.build = .ok h) :
    ∃ defs, Resolved h.parcels defs ∧ h.classes = preorder defs ∧
      h.declared = defs.map fun e : ClassDef => e.name := by
  obtain ⟨defs, hps, hdefs, hpar, hord, hchk, hdecl⟩ := build_eq_ok_iff.mp hb
  obtain ⟨hpnd, _, hpeq⟩ := resolveParcels_eq_ok_iff.mp hps
  obtain ⟨hfresh, hparcel, hempty, rfl⟩ := resolveClasses_eq_ok_iff.mp hdefs
  have hnd : DistinctDefs (d.classes.map (·.resolveIn h.parcels)) := by
    rw [DistinctDefs, ClassDecl.resolveIn_names]
    exact freshNames_nil_iff.mp hfresh
  obtain ⟨hclasses, hlin⟩ := (order_eq_ok_iff hnd).mp hord
  refine ⟨_, ⟨?_, hnd, ?_, ?_, (checkParents_eq_ok_iff hnd).mp hpar, hlin, hclasses ▸ hchk⟩,
    hclasses, hdecl⟩
  · rw [hpeq, resolveParcels_names]
    exact hpnd
  · intro e he
    obtain ⟨c, hc, rfl⟩ := List.mem_map.mp he
    exact (ClassDecl.resolveIn_parcel_mem (hparcel c hc)).1
  · intro e he hinert
    obtain ⟨c, hc, rfl⟩ := List.mem_map.mp he
    obtain ⟨hmem, hmeth⟩ := hempty c hc hinert
    exact ⟨List.map_eq_nil_iff.mpr hmem, hmeth⟩

end ClassTables
