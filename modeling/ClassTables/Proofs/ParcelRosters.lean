import ClassTables.Proofs.ParcelOrder
import Mathlib.Logic.Function.Basic
/-!
# The classes of a parcel and the parcels it inherits from

Two lists of a parcel are read off the classes of a hierarchy: the classes that are in it, and the
other parcels that hold the parents of these.  Both can be kept in a single walk along the classes in
which each class is entered into the roster of its own parcel and of no other (`rosters_eq`), although
class trees go back and forth between parcels.

What the lists say follows from the order of the walk: a parcel is entered where the first class
comes up that inherits from it (`pairwise_findIdx_eraseDups`), and a parent comes up before its
children.

Main statement: `parcel_rosters_of_build`.
-/

namespace ClassTables

/-! ## First occurrences -/

section FirstOccurrences

variable {α κ : Type} [DecidableEq κ]

theorem eraseDups_concat (l : List κ) (k : κ) :
    (l ++ [k]).eraseDups = if k ∈ l then l.eraseDups else l.eraseDups ++ [k] := by
  rw [List.eraseDups_append, List.removeAll]
  by_cases h : k ∈ l
  · simp [h]
  · simp [h, List.eraseDups_cons]

/-- What a list has somewhere is found at the same place when the list is continued. -/
theorem findIdx_append_of_mem {p : α → Bool} {l : List α} {a : α} (ha : a ∈ l) (hp : p a = true)
    (l' : List α) : (l ++ l').findIdx p = l.findIdx p := by
  have hlt : l.findIdx p < l.length := List.findIdx_lt_length_of_exists ⟨a, ha, hp⟩
  rw [List.findIdx_append, if_pos hlt]

/-- **Values that are listed once each stand in the order in which they first come up.** -/
theorem pairwise_findIdx_eraseDups (f : α → Option κ) (l : List α) :
    (l.filterMap f).eraseDups.Pairwise fun k k' =>
      l.findIdx (f · == some k) < l.findIdx (f · == some k') := by
  induction l using List.reverseRecOn with
  | nil => exact .nil
  | append_singleton l x ih =>
      have hplace : ∀ k ∈ (l.filterMap f).eraseDups,
          (l ++ [x]).findIdx (f · == some k) = l.findIdx (f · == some k) := by
        intro k hk
        obtain ⟨a, ha, hfa⟩ := List.mem_filterMap.mp (List.mem_eraseDups.mp hk)
        have hpass : (f a == some k) = true := by rw [hfa, beq_self_eq_true]
        exact findIdx_append_of_mem ha hpass [x]
      have hold : (l.filterMap f).eraseDups.Pairwise fun k k' =>
          (l ++ [x]).findIdx (f · == some k) < (l ++ [x]).findIdx (f · == some k') := by
        refine ih.imp_of_mem fun {k k'} hk hk' hlt => ?_
        rwa [hplace k hk, hplace k' hk']
      rw [List.filterMap_append]
      cases hx : f x with
      | none =>
          rw [List.filterMap_cons_none hx, List.filterMap_nil, List.append_nil]
          exact hold
      | some k =>
          rw [List.filterMap_cons_some hx, List.filterMap_nil, eraseDups_concat]
          split
          · exact hold
          · -- a value that has not come up before comes up at the end
            next hnew =>
              rw [List.pairwise_append]
              refine ⟨hold, List.pairwise_singleton _ _, fun j hj k' hk' => ?_⟩
              cases List.mem_singleton.mp hk'
              have hnone : l.findIdx (f · == some k) = l.length := by
                rw [List.findIdx_eq_length]
                intro a ha
                rw [beq_eq_false_iff_ne]
                exact fun hfa => hnew (List.mem_filterMap.mpr ⟨a, ha, hfa⟩)
              obtain ⟨a, ha, hfa⟩ := List.mem_filterMap.mp (List.mem_eraseDups.mp hj)
              have hlt : l.findIdx (f · == some j) < l.length :=
                List.findIdx_lt_length_of_exists ⟨a, ha, by rw [hfa, beq_self_eq_true]⟩
              rw [hplace j hj, List.findIdx_append, if_neg (by omega)]
              omega

end FirstOccurrences

/-! ## One walk along the classes -/

/-- What is entered for a parcel. -/
structure Roster where
  classes : List Class := []
  /-- The other parcels that hold parents of these classes. -/
  inherited : List Parcel := []

/-- The parcel that a class of `p` inherits from, if it is another one. -/
def Class.borrowsFrom? (p : Parcel) (c : Class) : Option Parcel :=
  if c.parcel = p then (c.parent?.map (·.parcel)).filter (· != p) else none

theorem Class.borrowsFrom?_eq_some_iff {p q : Parcel} {c : Class} :
    c.borrowsFrom? p = some q ↔ c.parcel = p ∧ q ≠ p ∧ ∃ a, c.parent? = some a ∧ a.parcel = q := by
  unfold borrowsFrom?
  rw [Option.ite_none_right_eq_some, Option.filter_eq_some_iff, Option.map_eq_some_iff, bne_iff_ne]
  exact and_congr_right fun _ => and_comm

/-- Enters a class into a roster: the class itself and, unless it is there, the parcel of its parent
if that is another one. -/
def Roster.enter (r : Roster) (c : Class) : Roster :=
  { classes := r.classes ++ [c]
    inherited :=
      match c.parent? with
      | none => r.inherited
      | some a =>
        if a.parcel ≠ c.parcel ∧ a.parcel ∉ r.inherited then r.inherited ++ [a.parcel]
        else r.inherited }

/-- The rosters of all parcels after a walk along classes, each of which is entered into the roster
of its own parcel. -/
def rosters (classes : List Class) : Parcel → Roster :=
  classes.foldl (fun rs c => Function.update rs c.parcel ((rs c.parcel).enter c)) fun _ => {}

theorem rosters_concat (cs : List Class) (c : Class) (p : Parcel) :
    rosters (cs ++ [c]) p = if p = c.parcel then (rosters cs p).enter c else rosters cs p := by
  unfold rosters
  rw [List.foldl_append]
  show Function.update _ c.parcel _ p = _
  rw [Function.update_apply]
  by_cases h : p = c.parcel
  · rw [if_pos h, if_pos h, h]
  · rw [if_neg h, if_neg h]

/-- **The walk collects the classes of a parcel and, each once, the parcels they borrow from.** -/
theorem rosters_eq (cs : List Class) (p : Parcel) :
    rosters cs p = ⟨cs.filter (·.parcel == p), (cs.filterMap (·.borrowsFrom? p)).eraseDups⟩ := by
  induction cs using List.reverseRecOn with
  | nil => rfl
  | append_singleton cs c ih =>
      rw [rosters_concat, ih, List.filter_append, List.filterMap_append]
      by_cases hown : c.parcel = p
      · subst hown
        have hclass : [c].filter (·.parcel == c.parcel) = [c] :=
          List.filter_cons_of_pos (beq_self_eq_true _)
        rw [if_pos rfl, hclass]
        unfold Roster.enter
        cases hparent : c.parent? with
        | none =>
            have hborrows : c.borrowsFrom? c.parcel = none := by simp [Class.borrowsFrom?, hparent]
            rw [List.filterMap_cons_none hborrows, List.filterMap_nil, List.append_nil]
        | some a =>
            by_cases ha : a.parcel = c.parcel
            · have hborrows : c.borrowsFrom? c.parcel = none := by
                simp [Class.borrowsFrom?, hparent, ha]
              rw [List.filterMap_cons_none hborrows, List.filterMap_nil, List.append_nil]
              simp [ha]
            · have hborrows : c.borrowsFrom? c.parcel = some a.parcel := by
                simp [Class.borrowsFrom?, hparent, ha]
              rw [List.filterMap_cons_some hborrows, List.filterMap_nil, eraseDups_concat]
              by_cases hmem : a.parcel ∈ cs.filterMap (·.borrowsFrom? c.parcel)
              · simp [hmem]
              · simp [hmem, ha]
      · have hclass : [c].filter (·.parcel == p) = [] :=
          List.filter_cons_of_neg (by rwa [beq_iff_eq])
        have hborrows : c.borrowsFrom? p = none := if_neg hown
        rw [if_neg (Ne.symm hown), hclass, List.filterMap_cons_none hborrows, List.filterMap_nil,
          List.append_nil, List.append_nil]

/-! ## The lists of a parcel -/

/-- The place of the first class of `p` whose parent is in `q`. -/
def Hierarchy.firstHeir (h : Hierarchy) (p q : Parcel) : Nat :=
  h.classes.findIdx fun c => c.parcel == p && c.parent?.any (·.parcel == q)

/-- The two lists of a parcel are what they should be. -/
structure Hierarchy.RosterExact (h : Hierarchy) (p : Parcel) : Prop where
  /-- A walk along all classes fills both. -/
  walk : rosters h.classes p = ⟨h.classesOf p, h.inheritedParcels p⟩
  own : h.classesOf p = h.classes.filter (·.parcel == p)
  distinct : (h.inheritedParcels p).Nodup
  not_self : p ∉ h.inheritedParcels p
  known : ∀ q ∈ h.inheritedParcels p, q ∈ h.parcels
  inherits_iff : ∀ q ∈ h.parcels, q ≠ p → (q ∈ h.inheritedParcels p ↔
    ∃ c ∈ h.classesOf p, ∃ a ∈ h.classesOf q, c.parent? = some a)
  inOrder : (h.inheritedParcels p).Pairwise fun q q' => h.firstHeir p q < h.firstHeir p q'
  /-- A parent stands further in front, or in a parcel that is inherited from. -/
  parents : ∀ pre c post, h.classesOf p = pre ++ c :: post → ∀ a, c.parent? = some a →
    a ∈ pre ∨ ∃ q ∈ h.inheritedParcels p, a ∈ h.classesOf q

/-- A parent stands in front of its child, or has been seen before. -/
theorem ParentsFirst.parent?_mem_front {c a : Class} {post : List Class} :
    ∀ {pre seen : List Class}, ParentsFirst seen (pre ++ c :: post) → c.parent? = some a →
      a ∈ pre ∨ a ∈ seen
  | [], _, h, ha => Or.inr (h.1 a ha)
  | e :: pre, seen, h, ha => by
      rcases h.2.parent?_mem_front ha with hmem | hmem
      · exact Or.inl (List.mem_cons_of_mem e hmem)
      · rcases List.mem_cons.mp hmem with rfl | hmem
        · exact Or.inl List.mem_cons_self
        · exact Or.inr hmem

section Built

variable {d : Declarations} {h : Hierarchy} {p q : Parcel} {a c : Class}

/-- A parcel of a hierarchy is known by its name. -/
theorem parcel_name_eq_iff (hb : d.build = .ok h) (hc : c ∈ h.classes) (hp : p ∈ h.parcels) :
    c.parcel.name = p.name ↔ c.parcel = p := by
  obtain ⟨defs, hres, -, -⟩ := exists_resolved_of_build hb
  exact ⟨eq_of_name_eq hres.parcelNames (parcel_mem_of_build hb hc) hp, congrArg Parcel.name⟩

theorem parcels_nodup (hb : d.build = .ok h) : h.parcels.Nodup := by
  obtain ⟨defs, hres, -, -⟩ := exists_resolved_of_build hb
  exact hres.parcelNames.of_map

theorem classesOf_eq (hb : d.build = .ok h) (hp : p ∈ h.parcels) :
    h.classesOf p = h.classes.filter (·.parcel == p) := by
  apply List.filter_congr
  intro c hc
  rw [Bool.eq_iff_iff, beq_iff_eq, beq_iff_eq]
  exact parcel_name_eq_iff hb hc hp

theorem mem_classesOf_iff (hb : d.build = .ok h) (hp : p ∈ h.parcels) :
    c ∈ h.classesOf p ↔ c ∈ h.classes ∧ c.parcel = p := by
  rw [classesOf_eq hb hp, List.mem_filter, beq_iff_eq]

theorem inheritedParcels_eq (hb : d.build = .ok h) (hp : p ∈ h.parcels) :
    h.inheritedParcels p = (h.classes.filterMap (·.borrowsFrom? p)).eraseDups := by
  unfold Hierarchy.inheritedParcels
  rw [classesOf_eq hb hp, List.filterMap_filter, List.map_filterMap, List.filter_filterMap]
  congr 1
  apply List.filterMap_congr
  intro c hc
  unfold Class.borrowsFrom?
  by_cases hown : c.parcel = p
  · rw [if_pos hown, if_pos (beq_iff_eq.mpr hown)]
    cases hparent : c.parent? with
    | none => rfl
    | some a =>
        have hname := parcel_name_eq_iff hb (parent_mem_of_build hb hc hparent) hp
        have hsame : (a.parcel.name != p.name) = (a.parcel != p) := by
          rw [Bool.eq_iff_iff, bne_iff_ne, bne_iff_ne, ne_eq, hname]
        simp only [Option.map_some, Option.filter_some, hsame]
  · rw [if_neg hown, if_neg (by rwa [beq_iff_eq])]
    rfl

theorem mem_inheritedParcels_iff (hb : d.build = .ok h) (hp : p ∈ h.parcels) :
    q ∈ h.inheritedParcels p ↔ q ≠ p ∧ ∃ c ∈ h.classesOf p, ∃ a, c.parent? = some a ∧ a.parcel = q := by
  rw [inheritedParcels_eq hb hp, List.mem_eraseDups, List.mem_filterMap]
  simp only [Class.borrowsFrom?_eq_some_iff, mem_classesOf_iff hb hp]
  constructor
  · rintro ⟨c, hc, hown, hne, hparent⟩
    exact ⟨hne, c, ⟨hc, hown⟩, hparent⟩
  · rintro ⟨hne, c, ⟨hc, hown⟩, hparent⟩
    exact ⟨c, hc, hown, hne, hparent⟩

/-- Where a parcel is borrowed from first. -/
theorem firstHeir_eq (hne : q ≠ p) :
    h.firstHeir p q = h.classes.findIdx fun c => c.borrowsFrom? p == some q := by
  unfold Hierarchy.firstHeir
  congr 1
  funext c
  rw [Bool.eq_iff_iff, beq_iff_eq, Class.borrowsFrom?_eq_some_iff, Bool.and_eq_true, beq_iff_eq,
    Option.any_eq_true]
  simp only [beq_iff_eq, hne, ne_eq, not_false_eq_true, true_and]

/-- **Every class is in the list of its own parcel and in no other.** -/
theorem classesOf_partition (hb : d.build = .ok h) :
    (h.parcels.flatMap h.classesOf).Perm h.classes := by
  have hnd : h.classes.Nodup := (classes_names_nodup hb).of_map
  have hlists : (h.parcels.flatMap h.classesOf).Nodup := by
    rw [List.nodup_flatMap]
    refine ⟨fun p _ => hnd.filter _, (parcels_nodup hb).imp_of_mem fun {p q} hp hq hne c hc hc' => ?_⟩
    rw [mem_classesOf_iff hb hp] at hc
    rw [mem_classesOf_iff hb hq] at hc'
    exact hne (hc.2.symm.trans hc'.2)
  rw [List.perm_ext_iff_of_nodup hlists hnd]
  intro c
  rw [List.mem_flatMap]
  constructor
  · rintro ⟨p, hp, hc⟩
    exact ((mem_classesOf_iff hb hp).mp hc).1
  · intro hc
    have hp := parcel_mem_of_build hb hc
    exact ⟨c.parcel, hp, (mem_classesOf_iff hb hp).mpr ⟨hc, rfl⟩⟩

/-- A parent stands further in front in the list of the parcel, or in another parcel. -/
theorem parent?_mem_classesOf (hb : d.build = .ok h) (hp : p ∈ h.parcels) {pre post : List Class}
    (hsplit : h.classesOf p = pre ++ c :: post) (ha : c.parent? = some a) :
    a ∈ pre ∨ a.parcel ≠ p := by
  obtain ⟨defs, -, hclasses, -⟩ := exists_resolved_of_build hb
  have hfirst : ParentsFirst [] h.classes := hclasses ▸ parentsFirst_preorder defs
  -- the list of the parcel has parents first behind all classes of other parcels
  have hafter : ParentsFirst ([].filter (·.parcel == p) ++ h.classes.filter (·.parcel != p))
      (h.classes.filter (·.parcel == p)) := by
    refine ParentsFirst.filter_after (fun e he _ b hb' => ?_) hfirst
    by_cases hown : b.parcel = p
    · exact Or.inl (beq_iff_eq.mpr hown)
    · exact Or.inr (List.mem_filter.mpr ⟨parent_mem_of_build hb he hb', bne_iff_ne.mpr hown⟩)
  rw [← classesOf_eq hb hp, hsplit] at hafter
  rcases hafter.parent?_mem_front ha with hmem | hmem
  · exact Or.inl hmem
  · rw [List.filter_nil, List.nil_append, List.mem_filter, bne_iff_ne] at hmem
    exact Or.inr hmem.2

/-- **The lists of the parcels are exact.**  In a hierarchy that was built the class lists of the
parcels make up all classes, and a class is in one list only, that of its parcel, in the order of
the hierarchy.  The parcels that a parcel inherits from are the others that hold a parent of one of its
classes, each once, in the order of the first such class.  So every parent is further in front in the
same list or in the list of one of these parcels. -/
theorem parcel_rosters_of_build (hb : d.build = .ok h) :
    (h.parcels.flatMap h.classesOf).Perm h.classes ∧
      (∀ c ∈ h.classes, ∃! p, p ∈ h.parcels ∧ c ∈ h.classesOf p) ∧
        ∀ p ∈ h.parcels, h.RosterExact p := by
  refine ⟨classesOf_partition hb, fun c hc => ?_, fun p hp => ?_⟩
  · have hp := parcel_mem_of_build hb hc
    refine ⟨c.parcel, ⟨hp, (mem_classesOf_iff hb hp).mpr ⟨hc, rfl⟩⟩, ?_⟩
    rintro q ⟨hq, hcq⟩
    exact ((mem_classesOf_iff hb hq).mp hcq).2.symm
  · have hinherited := inheritedParcels_eq hb hp
    have hother : ∀ q ∈ h.inheritedParcels p, q ≠ p :=
      fun q hq => ((mem_inheritedParcels_iff hb hp).mp hq).1
    have horder : (h.inheritedParcels p).Pairwise fun q q' => h.firstHeir p q < h.firstHeir p q' := by
      have hfirst := pairwise_findIdx_eraseDups (·.borrowsFrom? p) h.classes
      rw [← hinherited] at hfirst
      refine hfirst.imp_of_mem fun {q q'} hq hq' hlt => ?_
      rwa [firstHeir_eq (hother q hq), firstHeir_eq (hother q' hq')]
    refine ⟨?walk, classesOf_eq hb hp, ?distinct, fun hself => hother p hself rfl,
      fun q => inheritedParcels_subset hb, ?inherits_iff, horder, ?parents⟩
    case walk => rw [rosters_eq, classesOf_eq hb hp, hinherited]
    case distinct =>
      refine horder.imp fun {q q'} hlt heq => ?_
      subst heq
      exact Nat.lt_irrefl _ hlt
    case inherits_iff =>
      intro q hq hne
      rw [mem_inheritedParcels_iff hb hp]
      constructor
      · rintro ⟨-, c, hc, a, ha, rfl⟩
        have hclass := parent_mem_of_build hb ((mem_classesOf_iff hb hp).mp hc).1 ha
        exact ⟨c, hc, a, (mem_classesOf_iff hb hq).mpr ⟨hclass, rfl⟩, ha⟩
      · rintro ⟨c, hc, a, ha, hparent⟩
        exact ⟨hne, c, hc, a, hparent, ((mem_classesOf_iff hb hq).mp ha).2⟩
    case parents =>
      intro pre c post hsplit a ha
      refine (parent?_mem_classesOf hb hp hsplit ha).imp_right fun hne => ?_
      have hc : c ∈ h.classesOf p := hsplit ▸ List.mem_append_cons_self
      have hclass := parent_mem_of_build hb ((mem_classesOf_iff hb hp).mp hc).1 ha
      exact ⟨a.parcel, (mem_inheritedParcels_iff hb hp).mpr ⟨hne, c, hc, a, ha, rfl⟩,
        (mem_classesOf_iff hb (parcel_mem_of_build hb hclass)).mpr ⟨hclass, rfl⟩⟩

end Built

/-! ## Parcels that inherit from each other

```text
Ui::Widget            Ui
└ App::Button         App, from Ui
  └ Ui::Panel         Ui, from App
Base::Root            Base
└ App::Entry          App, from Base
```
-/

/-- Two class trees that weave between three parcels. -/
def braid : Declarations :=
  { parcels := [{ name := "Base" }, { name := "App" }, { name := "Ui" }]
    classes :=
      [{ name := "Ui::Widget", parcel := "Ui" },
       { name := "Base::Root", parcel := "Base" },
       { name := "App::Entry", parcel := "App", parent := some "Base::Root" },
       { name := "App::Button", parcel := "App", parent := some "Ui::Widget" },
       { name := "Ui::Panel", parcel := "Ui", parent := some "App::Button" }] }

def braidHierarchy : Hierarchy := braid.build.toOption.getD ⟨[], [], []⟩

/-- `App` and `Ui` inherit from each other, and `App` from `Ui` before `Base`, as the walk has it. -/
theorem braid_rosters : braid.build = .ok braidHierarchy ∧
    (braidHierarchy.parcels.flatMap braidHierarchy.classesOf).Perm braidHierarchy.classes ∧
      braidHierarchy.parcels.map (fun p => (p.name,
        (braidHierarchy.classesOf p).map (fun c : Class => c.name),
        (braidHierarchy.inheritedParcels p).map (·.name))) =
          [("Base", ["Base::Root"], []), ("App", ["App::Button", "App::Entry"], ["Ui", "Base"]),
            ("Ui", ["Ui::Widget", "Ui::Panel"], ["App"])] ∧
        ∀ p ∈ braidHierarchy.parcels, braidHierarchy.RosterExact p := by
  have hbuild : braid.build = .ok braidHierarchy := by decide +kernel
  obtain ⟨hpartition, -, hexact⟩ := parcel_rosters_of_build hbuild
  exact ⟨hbuild, hpartition, by decide +kernel, hexact⟩

end ClassTables
