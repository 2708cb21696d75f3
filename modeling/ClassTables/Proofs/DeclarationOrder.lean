import ClassTables.Proofs.DirectCalls
import ClassTables.Proofs.WellFormed
import Mathlib.Data.List.Perm.Basic
/-!
# The order of declarations

Where a class stands among the declarations decides when it is visited, and which of two faults is
found first.  It does not decide what the class is: a class is its lineage, a lineage is a way up
through parents that are named, and names are distinct.  So the order in which parcels and classes
are declared changes neither whether there is a hierarchy (`Declarations.WellFormed.perm`) nor what
its classes are (`class?_eq_of_perm`); slot numbers, which separately compiled parcels rely on, are
the same.

Main statement: `declaration_order_irrelevant`.
-/

namespace ClassTables

/-! ## Well-formed in any order -/

section Perm

variable {d d' : Declarations} {h h' : Hierarchy}

theorem Declarations.WellFormed.perm (hwf : d.WellFormed) (hp : d.parcels.Perm d'.parcels)
    (hc : d.classes.Perm d'.classes) : d'.WellFormed where
  parcelNames := (hp.map _).nodup_iff.mp hwf.parcelNames
  prereqs := fun p hmem q hq =>
    (hp.map _).mem_iff.mp (hwf.prereqs p (hp.mem_iff.mpr hmem) q hq)
  classNames := (hc.map _).nodup_iff.mp hwf.classNames
  classParcels := fun c hmem => (hp.map _).mem_iff.mp (hwf.classParcels c (hc.mem_iff.mpr hmem))
  inertEmpty := fun c hmem => hwf.inertEmpty c (hc.mem_iff.mpr hmem)
  parents := by
    intro c hmem n hn
    obtain ⟨p, hpmem, hname, hinert⟩ := hwf.parents c (hc.mem_iff.mpr hmem) n hn
    exact ⟨p, hc.mem_iff.mp hpmem, hname, hinert⟩
  acyclic := hwf.acyclic.mono hc.symm.subset
  members := fun l hl => hwf.members l (hl.mono hc.symm.subset)
  methods := fun c hmem => hwf.methods c (hc.mem_iff.mpr hmem)
  overrides := fun c above hl => hwf.overrides c above (hl.mono hc.symm.subset)

/-! ## Classes in any order -/

/-- A class is found by its name, as a lineage of declarations. -/
theorem class?_eq_some_iff (hb : d.build = .ok h) {n : String} {c : Class} :
    h.class? n = some c ↔
      (∃ l, DeclLineage d.classes l ∧ resolveAll h.parcels l = c.lineage) ∧ c.name = n := by
  rw [Hierarchy.class?, find?_key_eq_some_iff (classes_names_nodup hb), mem_classes_iff hb]

/-- A declaration is resolved alike among parcels in any order. -/
theorem resolveIn_perm {ps ps' : List Parcel} (hnd : (ps.map (·.name)).Nodup) (hp : ps.Perm ps')
    (c : ClassDecl) : c.resolveIn ps = c.resolveIn ps' := by
  unfold ClassDecl.resolveIn
  rw [find?_key_perm hnd hp]

/-- **A class does not depend on the order of declarations.** -/
theorem class?_eq_of_perm (hp : d.parcels.Perm d'.parcels) (hc : d.classes.Perm d'.classes)
    (hb : d.build = .ok h) (hb' : d'.build = .ok h') (n : String) : h.class? n = h'.class? n := by
  obtain ⟨-, hps, -⟩ := build_eq_ok_iff.mp hb
  obtain ⟨-, hps', -⟩ := build_eq_ok_iff.mp hb'
  obtain ⟨hnd, -, hparcels⟩ := resolveParcels_eq_ok_iff.mp hps
  obtain ⟨-, -, hparcels'⟩ := resolveParcels_eq_ok_iff.mp hps'
  have hperm : h.parcels.Perm h'.parcels := by
    rw [hparcels, hparcels']
    exact hp.map _
  have hnames : (h.parcels.map (·.name)).Nodup := by
    rwa [hparcels, resolveParcels_names]
  have hresolve : ∀ l, resolveAll h.parcels l = resolveAll h'.parcels l := fun l =>
    List.map_congr_left fun c _ => resolveIn_perm hnames hperm c
  have hlineage : ∀ l, DeclLineage d.classes l ↔ DeclLineage d'.classes l := fun l =>
    ⟨fun hl => hl.mono hc.subset, fun hl => hl.mono hc.symm.subset⟩
  apply Option.ext
  intro c
  simp only [class?_eq_some_iff hb, class?_eq_some_iff hb', hresolve, hlineage]

end Perm

/-! ## What a class is, in any order -/

/-- What separately compiled code relies on is the same for both classes: the parcel, the ancestors,
the members, and the methods slot by slot, each with its declaring class, its flags, its parameters
and how the class came by it. -/
structure Class.Alike (c c' : Class) : Prop where
  name : c.name = c'.name
  parcel : c.parcel = c'.parcel
  ancestors : (c.ancestors.map fun a : Class => a.name) = c'.ancestors.map fun a : Class => a.name
  members : c.members = c'.members
  methods : c.methods = c'.methods
  kinds : c.methods.map c.kindOf = c'.methods.map c'.kindOf

theorem Class.Alike.refl (c : Class) : c.Alike c := ⟨rfl, rfl, rfl, rfl, rfl, rfl⟩

/-- **The order of declarations does not matter.**  Parcels and classes may be declared in any order:
there is a hierarchy or there is none, and under every name both hierarchies have classes that are
alike, or none. -/
theorem declaration_order_irrelevant {d d' : Declarations} (hp : d.parcels.Perm d'.parcels)
    (hc : d.classes.Perm d'.classes) :
    ((∃ h, d.build = .ok h) ↔ ∃ h', d'.build = .ok h') ∧
      ∀ h h', d.build = .ok h → d'.build = .ok h' →
        ∀ n, Option.Rel Class.Alike (h.class? n) (h'.class? n) := by
  constructor
  · rw [build_isOk_iff_wellFormed, build_isOk_iff_wellFormed]
    exact ⟨fun hwf => hwf.perm hp hc, fun hwf => hwf.perm hp.symm hc.symm⟩
  · intro h h' hb hb' n
    rw [class?_eq_of_perm hp hc hb hb' n]
    cases h'.class? n with
    | none => exact .none
    | some c => exact .some (.refl c)

/-- The kennel, declared backwards. -/
def kennelBackwards : Declarations := ⟨kennel.parcels.reverse, kennel.classes.reverse⟩

/-- Backwards the kennel is the same, although every class is visited at another time. -/
theorem kennelBackwards_alike :
    kennel.parcels.Perm kennelBackwards.parcels ∧ kennel.classes.Perm kennelBackwards.classes ∧
      ∃ h', kennelBackwards.build = .ok h' ∧
        (h'.classes.map fun c : Class => c.name) ≠
          kennelHierarchy.classes.map (fun c : Class => c.name) ∧
        ∀ n, Option.Rel Class.Alike (kennelHierarchy.class? n) (h'.class? n) := by
  have hp : kennel.parcels.Perm kennelBackwards.parcels := (List.reverse_perm _).symm
  have hc : kennel.classes.Perm kennelBackwards.classes := (List.reverse_perm _).symm
  obtain ⟨hiff, halike⟩ := declaration_order_irrelevant hp hc
  obtain ⟨h', hb'⟩ := hiff.mp ⟨_, kennel_build⟩
  have hvisited : kennelBackwards.build.map (fun h => h.classes.map fun c : Class => c.name) ≠
      .ok (kennelHierarchy.classes.map fun c : Class => c.name) := by
    decide +kernel
  rw [hb'] at hvisited
  exact ⟨hp, hc, h', hb', fun heq => hvisited (congrArg Except.ok heq),
    halike _ h' kennel_build hb'⟩

end ClassTables
