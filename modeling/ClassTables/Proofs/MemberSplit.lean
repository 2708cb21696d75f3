import ClassTables.Proofs.FieldPlaces
import ClassTables.Proofs.WellFormed
/-!
# Members split at the border of a parcel

The members of a class are those that the classes of its lineage declare, the oldest class first.
How many of the first of them come from outside the parcel is taken from the list of another class,
the nearest ancestor of another parcel, and used to cut the list of the class.  The cut falls where
the run of classes of the parcel begins (`localMembers_eq`, `take_nonPackageCount`), however often
the lineage left the parcel and came back before.

Main statement: `members_split`, which reads the members off the declarations.
-/

namespace ClassTables

/-- The members that classes declare, given nearest first; those of the oldest class come first. -/
def declaredMembers (chain : List ClassDecl) : List Variable :=
  chain.reverse.flatMap fun e => e.members.map TypedName.resolve

/-! ## Along a lineage -/

theorem memberList_append (l l' : List ClassDef) :
    memberList (l ++ l') = memberList l' ++ memberList l := by
  rw [memberList_eq_flatMap, memberList_eq_flatMap l, memberList_eq_flatMap l', List.reverse_append,
    List.flatMap_append]

/-- The first class of a lineage that fails a test has as its own lineage what remains when those
before it are dropped. -/
theorem lineage_find?_ofLineage (p : ClassDef → Bool) : ∀ l : List ClassDef,
    (((Class.ofLineage l).find? fun a => !p a.toClassDef).map Class.lineage).getD [] = l.dropWhile p
  | [] => rfl
  | d :: ds => by
      rw [Class.ofLineage, List.find?_cons, List.dropWhile_cons]
      cases hp : p d with
      | false => rfl
      | true => exact lineage_find?_ofLineage p ds

/-! ## Around the border -/

namespace Class

variable (c : Class)

/-- The class and the ancestors directly above it that are in its parcel, nearest first. -/
def parcelRun : List ClassDef := c.lineage.takeWhile (·.parcel.name == c.parcel.name)

/-- What is above the run: the lineage of the nearest ancestor of another parcel. -/
def aboveRun : List ClassDef := c.lineage.dropWhile (·.parcel.name == c.parcel.name)

theorem foreignAncestor?_members :
    (c.foreignAncestor?.map (·.members)).getD [] = memberList c.aboveRun := by
  have hself : c.aboveRun = c.above.dropWhile (·.parcel.name == c.parcel.name) :=
    List.dropWhile_cons_of_pos (beq_self_eq_true _)
  rw [hself, ← lineage_find?_ofLineage]
  show (c.foreignAncestor?.map (·.members)).getD [] =
    memberList ((c.foreignAncestor?.map Class.lineage).getD [])
  cases c.foreignAncestor? with
  | none => rfl
  | some a => rfl

/-- The members fall into those from above the run and those of the run. -/
theorem members_eq_append : c.members = memberList c.aboveRun ++ memberList c.parcelRun := by
  rw [← memberList_append, parcelRun, aboveRun, List.takeWhile_append_dropWhile]
  rfl

theorem nonPackageCount_eq : c.nonPackageCount = (memberList c.aboveRun).length := by
  rw [← foreignAncestor?_members, nonPackageCount]
  cases c.foreignAncestor? with
  | none => rfl
  | some a => rfl

/-- **The local members are those of the run.** -/
theorem localMembers_eq : c.localMembers = memberList c.parcelRun := by
  rw [localMembers, nonPackageCount_eq, members_eq_append, List.drop_left]

/-- **The entries before them are the members of the nearest ancestor of another parcel.** -/
theorem take_nonPackageCount :
    c.members.take c.nonPackageCount = (c.foreignAncestor?.map (·.members)).getD [] := by
  rw [foreignAncestor?_members, nonPackageCount_eq, members_eq_append, List.take_left]

theorem nonPackageCount_le : c.nonPackageCount ≤ c.members.length := by
  rw [nonPackageCount_eq, members_eq_append, List.length_append]
  exact Nat.le_add_right _ _

end Class

/-! ## From the declarations -/

theorem memberList_resolveAll (parcels : List Parcel) (chain : List ClassDecl) :
    memberList (resolveAll parcels chain) = declaredMembers chain := by
  rw [memberList_eq_flatMap, ← List.map_reverse, List.flatMap_map]
  rfl

/-- The run of classes of one parcel can be told from the declarations. -/
theorem Class.parcelRun_of_resolveAll {c : Class} {parcels : List Parcel} {chain : List ClassDecl}
    (h : resolveAll parcels chain = c.lineage) :
    c.parcelRun = resolveAll parcels (chain.takeWhile (·.parcel == c.parcel.name)) := by
  rw [Class.parcelRun, ← h, List.takeWhile_map]
  congr 2
  funext e
  rw [Function.comp_apply, ClassDecl.resolveIn_parcel_name]

/-- How the members of a class lie around the border of its parcel; `chain` holds the declarations
of the class and its ancestors, nearest first. -/
structure Class.MembersSplit (c : Class) (chain : List ClassDecl) (facts : LayoutFacts) : Prop where
  members : c.members = declaredMembers chain
  distinct : (c.members.map (·.name)).Nodup
  count : facts.nonPackageCount = c.nonPackageCount
  count_le : c.nonPackageCount ≤ c.members.length
  /-- The members declared by the class and by the ancestors next to it in its parcel. -/
  own : facts.localMembers = declaredMembers (chain.takeWhile (·.parcel == c.parcel.name))
  /-- All that the first ancestor in another parcel has. -/
  others : c.members.take c.nonPackageCount =
    ((c.ancestors.find? (·.parcel != c.parcel)).map (·.members)).getD []

/-- **Members split at the border of a parcel.**  The members of a class with instances are those
declared from the root down to the class, under distinct names.  Local are those declared in the
unbroken run of classes of its parcel that ends with the class; those before them are the members of
the first ancestor in another parcel. -/
theorem members_split {d : Declarations} {h : Hierarchy} {c : Class} (hb : d.build = .ok h)
    (hc : c ∈ h.classes) (hlive : c.inert = false) :
    ∃ chain facts, DeclLineage d.classes chain ∧ resolveAll h.parcels chain = c.lineage ∧
      c.layoutFacts = .ok facts ∧ c.MembersSplit chain facts := by
  obtain ⟨chain, hchain, hlineage⟩ := (mem_classes_iff hb).mp hc
  have hinst := Class.ensureInstantiable_eq_ok_iff.mpr hlive
  have hmembers : c.members = memberList (resolveAll h.parcels chain) := by
    rw [hlineage]
    rfl
  refine ⟨chain, _, hchain, hlineage, unit_bind_eq_ok_iff.mpr ⟨hinst, rfl⟩, ?_, ?_, rfl,
    c.nonPackageCount_le, ?_, ?_⟩
  · rw [hmembers, memberList_resolveAll]
  · have hwf := (build_isOk_iff_wellFormed d).mp ⟨h, hb⟩
    rw [hmembers, memberList_names_nodup_iff]
    exact hwf.members chain hchain
  · show c.localMembers = _
    rw [c.localMembers_eq, Class.parcelRun_of_resolveAll hlineage, memberList_resolveAll]
  · rw [c.take_nonPackageCount,
      foreignAncestor?_eq_find?_parcel hb (mem_liveClasses_iff.mpr ⟨hc, hlive⟩)]

/-! ## A lineage that comes back with more than one class

```text
Base::Root     id                         Base
App::View      width, height              App
Base::Panel    style                      Base
App::Window    title, shade      ─┐       App
App::Dialog    modal             ─┘ run   App
```
-/

/-- Two parcels that take turns on a lineage, the second one with two classes in a row at the end. -/
def dialogs : Declarations :=
  { parcels := [{ name := "Base" }, { name := "App" }]
    classes :=
      [{ name := "Base::Root", parcel := "Base", members := [⟨"id", "int32_t"⟩] },
       { name := "App::View", parcel := "App", parent := some "Base::Root",
         members := [⟨"width", "uint16_t"⟩, ⟨"height", "uint16_t"⟩] },
       { name := "Base::Panel", parcel := "Base", parent := some "App::View",
         members := [⟨"style", "char"⟩] },
       { name := "App::Window", parcel := "App", parent := some "Base::Panel",
         members := [⟨"title", "char*"⟩, ⟨"shade", "char"⟩] },
       { name := "App::Dialog", parcel := "App", parent := some "App::Window",
         members := [⟨"modal", "bool"⟩] }] }

def dialogsHierarchy : Hierarchy := dialogs.build.toOption.getD ⟨[], [], []⟩

theorem dialogs_build : dialogs.build = .ok dialogsHierarchy := by decide +kernel

/-- Four members come from outside the last run. -/
theorem dialogs_split : ∃ c ∈ dialogsHierarchy.classes, c.inert = false ∧ c.name = "App::Dialog" ∧
    ∃ chain facts, DeclLineage dialogs.classes chain ∧
      resolveAll dialogsHierarchy.parcels chain = c.lineage ∧ c.layoutFacts = .ok facts ∧
        c.MembersSplit chain facts ∧ c.nonPackageCount = 4 ∧
          facts.localMembers.map (·.name) = ["title", "shade", "modal"] := by
  have hdialog : ∃ c ∈ dialogsHierarchy.classes, c.inert = false ∧ c.name = "App::Dialog" ∧
      c.nonPackageCount = 4 ∧
        c.layoutFacts.map (fun f => f.localMembers.map (·.name)) = .ok ["title", "shade", "modal"] := by
    decide +kernel
  obtain ⟨c, hc, hlive, hname, hcount, hlocal⟩ := hdialog
  obtain ⟨chain, facts, hchain, hlineage, hfacts, hsplit⟩ := members_split dialogs_build hc hlive
  rw [hfacts] at hlocal
  exact ⟨c, hc, hlive, hname, chain, facts, hchain, hlineage, hfacts, hsplit, hcount,
    Except.ok.inj hlocal⟩

end ClassTables
