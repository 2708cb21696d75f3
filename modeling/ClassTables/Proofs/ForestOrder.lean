import ClassTables.Proofs.Lists
import ClassTables.Proofs.Preorder
/-!
# The order of a forest, or a cycle

`order` walks down from the roots to a fixed depth, and it looks for a cycle in a fixed number of
steps.  Two descriptions know neither: the preorder of the trees below a row of siblings
(`Traversal`), and the stack that holds the classes still to be listed (`Unstacks`).

Where every class has its way up to a root, `order` lists the forest as both descriptions do: every
class once, behind its parent, and every subtree in one stretch (`Traversal.inOneStretch`).  Where a
class has none, `order` names a class that is its own ancestor (`onCycle_firstRepeated`), though
the class that it first misses may only hang below the cycle.
-/

namespace ClassTables

/-- What `p` is to a class that names it as its parent. -/
abbrev DefParent (defs : List ClassDef) : ClassDef → ClassDef → Prop :=
  ParentIn (fun d : ClassDef => d.name) (·.parentName) defs

/-- Every parent that is named is a class of the list. -/
abbrev ParentsResolved (defs : List ClassDef) : Prop :=
  ParentsKnown (fun d : ClassDef => d.name) (·.parentName) defs

/-! ## Two descriptions of the order -/

/-- `cs` is the preorder of the trees below the siblings `ds`, whose ancestors are `above`. -/
inductive Traversal (defs : List ClassDef) : List ClassDef → List ClassDef → List Class → Prop
  | nil {above : List ClassDef} : Traversal defs above [] []
  | cons {above ds : List ClassDef} {d : ClassDef} {below rest : List Class} :
      Traversal defs (d :: above) (childrenOf defs d.name) below → Traversal defs above ds rest →
        Traversal defs above (d :: ds) (⟨d, above⟩ :: (below ++ rest))

/-- A stack gives out its classes: the top one leaves it, and its children go onto it, the first of
them on top. -/
inductive Unstacks (defs : List ClassDef) : List ClassDef → List ClassDef → Prop
  | done : Unstacks defs [] []
  | pop {d : ClassDef} {stack out : List ClassDef} :
      Unstacks defs (childrenOf defs d.name ++ stack) out → Unstacks defs (d :: stack) (d :: out)

variable {defs above ds : List ClassDef} {cs l : List Class} {c : Class}

/-- **A stack gives out the siblings on its top in preorder.** -/
theorem Traversal.unstacks (h : Traversal defs above ds cs) : ∀ {stack out : List ClassDef},
    Unstacks defs stack out →
      Unstacks defs (ds ++ stack) (cs.map (fun c : Class => c.toClassDef) ++ out) := by
  induction h with
  | nil =>
      intro stack out hs
      exact hs
  | cons _ _ ihBelow ihRest =>
      intro stack out hs
      rw [List.map_cons, List.map_append, List.cons_append, List.cons_append, List.append_assoc]
      exact .pop (ihBelow (ihRest hs))

/-- A stack leaves no choice. -/
theorem Unstacks.unique {stack out : List ClassDef} (h : Unstacks defs stack out) :
    ∀ {out' : List ClassDef}, Unstacks defs stack out' → out = out' := by
  induction h with
  | done =>
      intro out' h'
      cases h'
      rfl
  | pop _ ih =>
      intro out' h'
      cases h' with
      | pop h' => rw [ih h']

/-! ## The depth suffices -/

/-- Trees side by side. -/
theorem Traversal.flatMap {f : ClassDef → List Class} : ∀ {ds : List ClassDef},
    (∀ d ∈ ds, Traversal defs above [d] (f d)) → Traversal defs above ds (ds.flatMap f)
  | [], _ => .nil
  | d :: ds, h => by
      obtain ⟨hd, hds⟩ := List.forall_mem_cons.mp h
      rw [List.flatMap_cons]
      cases hfd : f d with
      | nil =>
          rw [hfd] at hd
          cases hd
      | cons c cs =>
          rw [hfd] at hd
          cases hd with
          | cons hbelow hnil =>
              cases hnil
              rw [List.append_nil]
              exact .cons hbelow (Traversal.flatMap hds)

/-- **No branch is cut off,** because a lineage is no longer than the list of classes. -/
theorem traversal_descend (hnd : DistinctDefs defs) : ∀ {k : Nat} {above : List ClassDef}
    {d : ClassDef}, DefLineage defs (d :: above) → defs.length ≤ k + (d :: above).length →
      Traversal defs above [d] (descend defs k above d) := by
  intro k
  induction k with
  | zero =>
      intro above d hd hlen
      have hchildren : childrenOf defs d.name = [] := by
        rw [List.eq_nil_iff_forall_not_mem]
        intro e he
        obtain ⟨he, hp⟩ := mem_childrenOf.mp he
        have hlong := (Lineage.child he hp hd).length_le hnd
        rw [List.length_cons] at hlong
        omega
      have hbelow : Traversal defs (d :: above) (childrenOf defs d.name) [] := by
        rw [hchildren]
        exact .nil
      exact .cons hbelow .nil
  | succ k ih =>
      intro above d hd hlen
      have hbelow : Traversal defs (d :: above) (childrenOf defs d.name)
          ((childrenOf defs d.name).flatMap (descend defs k (d :: above))) := by
        refine Traversal.flatMap fun e he => ?_
        obtain ⟨he, hp⟩ := mem_childrenOf.mp he
        refine ih (.child he hp hd) ?_
        rw [List.length_cons]
        omega
      have hwhole := hbelow.cons (.nil : Traversal defs above [] [])
      rw [List.append_nil] at hwhole
      exact hwhole

theorem traversal_preorder (hnd : DistinctDefs defs) :
    Traversal defs [] (rootsOf defs) (preorder defs) := by
  refine Traversal.flatMap fun d hd => ?_
  obtain ⟨hd, hp⟩ := mem_rootsOf.mp hd
  exact traversal_descend hnd (.root hd hp) (Nat.le_add_right _ _)

theorem unstacks_preorder (hnd : DistinctDefs defs) :
    Unstacks defs (rootsOf defs) ((preorder defs).map fun c : Class => c.toClassDef) := by
  have h := (traversal_preorder hnd).unstacks .done
  rw [List.append_nil, List.append_nil] at h
  exact h

/-! ## Subtrees stay together -/

/-- A class and all that descends from it stand in one stretch of the list, the class first. -/
def InOneStretch (cs : List Class) (c : Class) : Prop :=
  ∃ pre below post, cs = pre ++ c :: (below ++ post) ∧
    ∀ x ∈ cs, x ∈ c :: below ↔ c.lineage <:+ x.lineage

/-- More classes around do not break a stretch, if none of them descends from the class. -/
theorem InOneStretch.widen {front back : List Class} (h : InOneStretch cs c)
    (hfront : ∀ x ∈ front, ¬ c.lineage <:+ x.lineage)
    (hback : ∀ x ∈ back, ¬ c.lineage <:+ x.lineage) : InOneStretch (front ++ (cs ++ back)) c := by
  obtain ⟨pre, below, post, rfl, hiff⟩ := h
  refine ⟨front ++ pre, below, post ++ back, by simp, fun x hx => ?_⟩
  have hstretch : x ∈ c :: below → c.lineage <:+ x.lineage := by
    intro hxs
    refine (hiff x ?_).mp hxs
    rw [← List.cons_append]
    exact List.mem_append_right _ (List.mem_append_left _ hxs)
  rcases List.mem_append.mp hx with hx | hx
  · exact iff_of_false (fun hxs => hfront x hx (hstretch hxs)) (hfront x hx)
  · rcases List.mem_append.mp hx with hx | hx
    · exact hiff x hx
    · exact iff_of_false (fun hxs => hback x hx (hstretch hxs)) (hback x hx)

/-- All that is listed descends from one of the siblings. -/
theorem Traversal.exists_suffix (h : Traversal defs above ds cs) : ∀ {c : Class}, c ∈ cs →
    ∃ d ∈ ds, d :: above <:+ c.lineage := by
  induction h with
  | nil =>
      intro c hc
      cases hc
  | @cons above ds d below rest _ _ ihBelow ihRest =>
      intro c hc
      rcases List.mem_cons.mp hc with rfl | hc
      · exact ⟨d, List.mem_cons_self, List.suffix_rfl⟩
      · rcases List.mem_append.mp hc with hc | hc
        · obtain ⟨e, -, he⟩ := ihBelow hc
          exact ⟨d, List.mem_cons_self, (List.suffix_cons e (d :: above)).trans he⟩
        · obtain ⟨e, hmem, he⟩ := ihRest hc
          exact ⟨e, List.mem_cons_of_mem d hmem, he⟩

/-- **Every subtree is listed in one stretch.** -/
theorem Traversal.inOneStretch (hdefs : defs.Nodup) (h : Traversal defs above ds cs) :
    ds.Nodup → ∀ {c : Class}, c ∈ cs → InOneStretch cs c := by
  induction h with
  | nil =>
      intro _ c hc
      cases hc
  | @cons above ds d below rest hbelow hrest ihBelow ihRest =>
      intro hds c hc
      obtain ⟨hd, hds⟩ := List.nodup_cons.mp hds
      -- the tree of `d` and the trees of its siblings have nothing in common
      have hown : ∀ x ∈ (⟨d, above⟩ : Class) :: below, d :: above <:+ x.lineage := by
        intro x hx
        rcases List.mem_cons.mp hx with rfl | hx
        · exact List.suffix_rfl
        · obtain ⟨e, -, he⟩ := hbelow.exists_suffix hx
          exact (List.suffix_cons e (d :: above)).trans he
      have hapart : ∀ e ∈ ds, ∀ {x : Class}, d :: above <:+ x.lineage →
          ¬ e :: above <:+ x.lineage := by
        intro e he x hxd hxe
        have hsuffix := List.suffix_of_suffix_length_le hxd hxe (Nat.le_of_eq rfl)
        obtain ⟨rfl, -⟩ := List.cons.inj (hsuffix.eq_of_length rfl)
        exact hd he
      rcases List.mem_cons.mp hc with rfl | hc
      · refine ⟨[], below, rest, rfl, fun x hx => ?_⟩
        rw [← List.cons_append] at hx
        rcases List.mem_append.mp hx with hx | hx
        · exact iff_of_true hx (hown x hx)
        · obtain ⟨e, he, hxe⟩ := hrest.exists_suffix hx
          exact iff_of_false (fun hxd => hapart e he (hown x hxd) hxe) fun hxd => hapart e he hxd hxe
      · rcases List.mem_append.mp hc with hc | hc
        · have hlist : (⟨d, above⟩ : Class) :: (below ++ rest) = [⟨d, above⟩] ++ (below ++ rest) := rfl
          obtain ⟨e, -, hce⟩ := hbelow.exists_suffix hc
          rw [hlist]
          refine (ihBelow (hdefs.filter _) hc).widen ?_ ?_
          · intro x hx hcx
            rw [List.mem_singleton] at hx
            subst hx
            have hlen := (hce.trans hcx).length_le
            rw [Class.lineage_mk, List.length_cons] at hlen
            omega
          · intro x hx hcx
            obtain ⟨f, hf, hxf⟩ := hrest.exists_suffix hx
            exact hapart f hf (((List.suffix_cons e _).trans hce).trans hcx) hxf
        · have hlist : (⟨d, above⟩ : Class) :: (below ++ rest) =
              (⟨d, above⟩ :: below) ++ (rest ++ []) := by simp
          obtain ⟨e, he, hce⟩ := hrest.exists_suffix hc
          rw [hlist]
          refine (ihRest hds hc).widen ?_ ?_
          · intro x hx hcx
            exact hapart e he (hown x hx) (hce.trans hcx)
          · intro x hx
            cases hx

/-- On a lineage stand the ancestors of its first class, and nothing else. -/
theorem suffix_lineage_iff (hnd : DistinctDefs defs) {x : Class}
    (hc : DefLineage defs c.lineage) (hx : DefLineage defs x.lineage) :
    c.lineage <:+ x.lineage ↔
      Relation.ReflTransGen (DefParent defs) c.toClassDef x.toClassDef := by
  constructor
  · intro hsuffix
    rcases List.suffix_cons_iff.mp hsuffix with heq | habove
    · obtain ⟨hhead, -⟩ := List.cons.inj heq
      rw [hhead]
    · have hmem : c.toClassDef ∈ x.above := habove.subset List.mem_cons_self
      exact (hx.transGen_of_mem_above hmem).to_reflTransGen
  · intro hcx
    rcases Relation.reflTransGen_iff_eq_or_transGen.mp hcx with heq | hcx
    · have hsame : x = c := by
        rw [← mem_preorder_iff hnd] at hc hx
        exact eq_of_mem_preorder hnd hx hc (congrArg (fun d : ClassDef => d.name) heq)
      rw [hsame]
    · obtain ⟨below, above, heq⟩ := List.append_of_mem (Lineage.mem_above hnd hcx hx)
      have habove : DefLineage defs (c.toClassDef :: above) := by
        rw [Class.lineage, heq] at hx
        exact Lineage.of_append (x.toClassDef :: below) hx
      have hsame : above = c.above := habove.above_eq hnd hc
      rw [Class.lineage, Class.lineage, heq, hsame]
      exact (List.suffix_append below _).trans (List.suffix_cons _ _)

/-! ## A class on a cycle -/

section Cycle

variable {d : ClassDef}

/-- A class without a way up has a parent without a way up. -/
theorem exists_parent_of_lost (hknown : ParentsResolved defs) (hd : d ∈ defs)
    (hlost : ∀ above, ¬ DefLineage defs (d :: above)) :
    ∃ p ∈ defs, d.parentName = some p.name ∧ ∀ above, ¬ DefLineage defs (p :: above) := by
  cases hp : d.parentName with
  | none => exact absurd (Lineage.root hd hp) (hlost [])
  | some n =>
      obtain ⟨p, hmem, rfl⟩ := hknown d hd n hp
      exact ⟨p, hmem, rfl, fun above h => hlost (p :: above) (.child hd hp h)⟩

/-- **The way up from a class that has none to a root comes to a class twice,** and that class is
its own ancestor.  The steps suffice: whoever has met all classes meets one again. -/
theorem onCycle_firstRepeated (hnd : DistinctDefs defs) (hknown : ParentsResolved defs) :
    ∀ (steps : Nat) (seen : List ClassDef) {d : ClassDef}, d ∈ defs →
      (∀ above, ¬ DefLineage defs (d :: above)) → seen.Nodup →
        (∀ x ∈ seen, x ∈ defs ∧ Relation.TransGen (DefParent defs) d x) →
          defs.length ≤ steps + seen.length →
            ∃ e ∈ defs, firstRepeated defs steps (seen.map fun x : ClassDef => x.name) d = e ∧
              Relation.TransGen (DefParent defs) e e := by
  intro steps
  induction steps with
  | zero =>
      intro seen d hd hlost hseen hbelow hlen
      rw [Nat.zero_add] at hlen
      have hsub : seen.Subperm defs := hseen.subperm fun x hx => (hbelow x hx).1
      have hmem : d ∈ seen := (hsub.perm_of_length_le hlen).mem_iff.mpr hd
      exact ⟨d, hd, rfl, (hbelow d hmem).2⟩
  | succ steps ih =>
      intro seen d hd hlost hseen hbelow hlen
      rw [firstRepeated]
      by_cases hrep : d.name ∈ seen.map fun x : ClassDef => x.name
      · rw [if_pos hrep]
        obtain ⟨x, hx, hname⟩ := List.mem_map.mp hrep
        obtain ⟨hxd, hdx⟩ := hbelow x hx
        rw [eq_of_name_eq hnd hxd hd hname] at hdx
        exact ⟨d, hd, rfl, hdx⟩
      · rw [if_neg hrep]
        obtain ⟨p, hp, hparent, hplost⟩ := exists_parent_of_lost hknown hd hlost
        have hin : parentIn? defs d = some p := by
          rw [parentIn?, hparent]
          exact (find?_key_eq_some_iff hnd).mpr ⟨hp, rfl⟩
        have hstep : DefParent defs p d := ⟨hp, hd, hparent⟩
        have hnew : d ∉ seen := fun hmem => hrep (List.mem_map_of_mem hmem)
        rw [hin]
        refine ih (d :: seen) hp hplost (List.nodup_cons.mpr ⟨hnew, hseen⟩) ?_ ?_
        · intro x hx
          rcases List.mem_cons.mp hx with rfl | hx
          · exact ⟨hd, .single hstep⟩
          · obtain ⟨hxd, hdx⟩ := hbelow x hx
            exact ⟨hxd, .head hstep hdx⟩
        · rw [List.length_cons]
          omega

end Cycle

/-! ## The whole -/

/-- The classes of a forest, each with its lineage, in preorder. -/
structure InForestOrder (defs : List ClassDef) (cs : List Class) : Prop where
  /-- Roots and siblings are in declaration order, and each is followed by what is below it. -/
  traversal : Traversal defs [] (rootsOf defs) cs
  /-- This is how a stack gives them out that holds the roots, and no other way. -/
  unstacks : ∀ out, Unstacks defs (rootsOf defs) out ↔ out = cs.map fun c : Class => c.toClassDef
  lineage : ∀ c ∈ cs, DefLineage defs c.lineage
  once : (cs.map fun c : Class => c.toClassDef).Perm defs
  parentsFirst : ParentsFirst [] cs
  /-- A class and its descendants stand in one stretch. -/
  together : ∀ c ∈ cs, ∃ pre below post, cs = pre ++ c :: (below ++ post) ∧ ∀ x ∈ cs,
    x ∈ c :: below ↔ Relation.ReflTransGen (DefParent defs) c.toClassDef x.toClassDef

theorem inForestOrder_preorder (hnd : DistinctDefs defs)
    (hlin : ∀ d ∈ defs, ∃ above, DefLineage defs (d :: above)) :
    InForestOrder defs (preorder defs) where
  traversal := traversal_preorder hnd
  unstacks out := by
    constructor
    · intro h
      exact h.unique (unstacks_preorder hnd)
    · rintro rfl
      exact unstacks_preorder hnd
  lineage c hc := (mem_preorder_iff hnd).mp hc
  once := by
    have hdistinct : ((preorder defs).map fun c : Class => c.toClassDef).Nodup := by
      refine (preorder_nodup hnd).map_on fun a ha c hc heq => ?_
      exact eq_of_mem_preorder hnd ha hc (congrArg (fun d : ClassDef => d.name) heq)
    rw [List.perm_ext_iff_of_nodup hdistinct (List.Nodup.of_map _ hnd)]
    intro d
    rw [List.mem_map]
    constructor
    · rintro ⟨c, hc, rfl⟩
      exact ((mem_preorder_iff hnd).mp hc).mem_of_head
    · intro hd
      obtain ⟨above, h⟩ := hlin d hd
      exact ⟨⟨d, above⟩, (mem_preorder_iff hnd).mpr h, rfl⟩
  parentsFirst := parentsFirst_preorder defs
  together c hc := by
    have hdefs : defs.Nodup := List.Nodup.of_map _ hnd
    obtain ⟨pre, below, post, heq, hiff⟩ :=
      (traversal_preorder hnd).inOneStretch hdefs (hdefs.filter _) hc
    refine ⟨pre, below, post, heq, fun x hx => (hiff x hx).trans ?_⟩
    exact suffix_lineage_iff hnd ((mem_preorder_iff hnd).mp hc) ((mem_preorder_iff hnd).mp hx)

/-- **The preorder of a forest, or a class on a cycle.**  Where the parents lead from every class up
to a root, `order` answers with the forest in preorder.  Where they do not, it names a class that is
its own ancestor. -/
theorem order_forest_or_cycle (hnd : DistinctDefs defs) (hknown : ParentsResolved defs) :
    ((∀ d ∈ defs, ∃ above, DefLineage defs (d :: above)) →
      ∃ cs, order defs = .ok cs ∧ InForestOrder defs cs) ∧
    ((∃ d ∈ defs, ∀ above, ¬ DefLineage defs (d :: above)) →
      ∃ d ∈ defs, order defs = .error (.cyclicInheritance d.name) ∧
        Relation.TransGen (DefParent defs) d d) := by
  constructor
  · intro hlin
    exact ⟨_, (order_eq_ok_iff hnd).mpr ⟨rfl, hlin⟩, inForestOrder_preorder hnd hlin⟩
  · rintro ⟨d, hd, hlost⟩
    rw [order]
    cases hfind : defs.find? (fun d => !(preorder defs).any fun c => c.name == d.name) with
    | none =>
        rw [List.find?_eq_none] at hfind
        have hplaced := hfind d hd
        rw [Bool.not_eq_true', Bool.not_eq_false, any_name_preorder_iff hnd hd] at hplaced
        obtain ⟨above, h⟩ := hplaced
        exact absurd h (hlost above)
    | some first =>
        have hfirst := List.mem_of_find?_eq_some hfind
        have hmissed := List.find?_some hfind
        rw [Bool.not_eq_true', ← Bool.not_eq_true, any_name_preorder_iff hnd hfirst, not_exists]
          at hmissed
        obtain ⟨e, he, hrep, hcycle⟩ := onCycle_firstRepeated hnd hknown defs.length [] hfirst
          hmissed List.nodup_nil (List.forall_mem_nil _) (Nat.le_refl _)
        refine ⟨e, he, ?_, hcycle⟩
        rw [← hrep]
        rfl

/-! ## A forest declared upside down, and a tail on a cycle

```text
Rock            Animal             Head ◄── Tail
└─ Pebble       ├─ Cat             │  ▲
                └─ Dog             ▼  │
                   └─ Pug          Body        Root
```
-/

/-- A class of which only the name and the parent matter. -/
def bareClass (name : String) (parent : Option String) : ClassDef :=
  ({ name, parcel := "Zoo", parent } : ClassDecl).resolve ⟨"Zoo", "Zoo", false, []⟩

/-- Two trees, declared so that most parents come after their children. -/
def petTrees : List ClassDef :=
  [bareClass "Pug" (some "Dog"), bareClass "Cat" (some "Animal"), bareClass "Rock" none,
    bareClass "Dog" (some "Animal"), bareClass "Animal" none, bareClass "Pebble" (some "Rock")]

/-- A cycle, and a class that hangs below it and is declared first. -/
def tailedCycle : List ClassDef :=
  [bareClass "Tail" (some "Head"), bareClass "Head" (some "Body"), bareClass "Body" (some "Head"),
    bareClass "Root" none]

/-- The trees are listed in preorder; the cycle is found though the class missed first is none of
its own ancestors. -/
theorem petTrees_tailedCycle_order :
    (DistinctDefs petTrees ∧ ParentsResolved petTrees ∧
      ∃ cs, order petTrees = .ok cs ∧ InForestOrder petTrees cs ∧
        cs.map (fun c : Class => c.name) = ["Rock", "Pebble", "Animal", "Cat", "Dog", "Pug"]) ∧
    (DistinctDefs tailedCycle ∧ ParentsResolved tailedCycle ∧
      ∃ d ∈ tailedCycle, order tailedCycle = .error (.cyclicInheritance d.name) ∧
        Relation.TransGen (DefParent tailedCycle) d d ∧ d.name = "Head") := by
  have hpets : DistinctDefs petTrees := by decide
  have hpetsKnown : ParentsResolved petTrees := by
    show ∀ c ∈ petTrees, ∀ n ∈ c.parentName, ∃ p ∈ petTrees, p.name = n
    decide
  have hcycle : DistinctDefs tailedCycle := by decide
  have hcycleKnown : ParentsResolved tailedCycle := by
    show ∀ c ∈ tailedCycle, ∀ n ∈ c.parentName, ∃ p ∈ tailedCycle, p.name = n
    decide
  have hpetsOrder : (order petTrees).map (fun cs => cs.map fun c : Class => c.name) =
      .ok ["Rock", "Pebble", "Animal", "Cat", "Dog", "Pug"] := by decide +kernel
  have hcycleOrder : order tailedCycle = .error (.cyclicInheritance "Head") := by decide +kernel
  refine ⟨⟨hpets, hpetsKnown, ?_⟩, ⟨hcycle, hcycleKnown, ?_⟩⟩
  · obtain ⟨cs, hcs, hnames⟩ := map_eq_ok_iff.mp hpetsOrder
    have hlin := ((order_eq_ok_iff hpets).mp hcs).2
    obtain ⟨cs', hcs', hforest⟩ := (order_forest_or_cycle hpets hpetsKnown).1 hlin
    cases hcs.symm.trans hcs'
    exact ⟨cs, hcs, hforest, hnames⟩
  · have hlost : ∃ d ∈ tailedCycle, ∀ above, ¬ DefLineage tailedCycle (d :: above) := by
      by_contra hnone
      push Not at hnone
      have hok := (order_eq_ok_iff hcycle).mpr ⟨rfl, hnone⟩
      exact nomatch hcycleOrder.symm.trans hok
    obtain ⟨d, hd, herror, hself⟩ := (order_forest_or_cycle hcycle hcycleKnown).2 hlost
    refine ⟨d, hd, herror, hself, ?_⟩
    have hname := Except.error.inj (herror.symm.trans hcycleOrder)
    exact BuildError.cyclicInheritance.inj hname

end ClassTables
