import ClassTables.Proofs.Specs
import ClassTables.Zoo
/-!
# Loading a whole hierarchy

The classes of a hierarchy that have instances are specified one by one and loaded in order.  What
each of them becomes can be said without a registry: `Class.loaded` reads it off the lineage.  A
registry that loads a class after its ancestors adds exactly that (`register_specOf`), so a whole
hierarchy loads (`bootstrap_specs`).
-/

namespace ClassTables

/-! ## What a class becomes -/

section Loaded

variable (target : Target)

/-- The layout of the block of members, where it is known. -/
def Class.layout (c : Class) : IvarsLayout := (c.ivarsLayout target).toOption.getD {}

/-- What loading makes of a class whose ancestors, nearest first, have been loaded. -/
def Class.loadedBelow (c : Class) (above : List (LoadedClass String)) : LoadedClass String :=
  let foreign := above.find? (·.parcel != c.parcel.name)
  let ivarsAlign := max (c.layout target).align 1
  let offset := (foreign.map fun a => roundUp a.allocSize ivarsAlign).getD 0
  let align := max ((above.head?.map (·.align)).getD 1) ivarsAlign
  { name := c.name
    parcel := c.parcel.name
    parent := c.parent?.map (·.name)
    table := c.table
    ivarsOffset := offset
    allocSize := roundUp (offset + (c.layout target).size) align
    align }

/-- The classes of a lineage as they are loaded. -/
def loadedLineage : List ClassDef → List (LoadedClass String)
  | [] => []
  | d :: ds => (⟨d, ds⟩ : Class).loadedBelow target (loadedLineage ds) :: loadedLineage ds

/-- A class as it is loaded. -/
def Class.loaded (c : Class) : LoadedClass String :=
  c.loadedBelow target (loadedLineage target c.above)

theorem loadedLineage_eq_map : ∀ l : List ClassDef,
    loadedLineage target l = (Class.ofLineage l).map (·.loaded target)
  | [] => rfl
  | d :: ds => by
      rw [loadedLineage, Class.ofLineage, List.map_cons, ← loadedLineage_eq_map ds]
      rfl

theorem Class.loaded_eq (c : Class) :
    c.loaded target = c.loadedBelow target (c.ancestors.map (·.loaded target)) := by
  rw [Class.loaded, loadedLineage_eq_map]
  rfl

@[simp] theorem Class.loaded_name (c : Class) : (c.loaded target).name = c.name := rfl

@[simp] theorem Class.loaded_parent (c : Class) :
    (c.loaded target).parent = c.parent?.map (·.name) := rfl

@[simp] theorem Class.loaded_table (c : Class) : (c.loaded target).table = c.table := rfl

theorem loaded_names (cs : List Class) :
    (cs.map (·.loaded target)).map (·.name) = cs.map fun c : Class => c.name := by
  rw [List.map_map]
  rfl

end Loaded

/-! ## The chain of a loaded class -/

/-- Classes listed newest first, each before its parent. -/
def Grounded : List Class → Prop
  | [] => True
  | c :: cs => (∀ p, c.parent? = some p → p ∈ cs) ∧ Grounded cs

theorem Class.ancestors_of_parent? {c p : Class} (h : c.parent? = some p) :
    c.ancestors = p :: p.ancestors := by
  rw [Class.ancestors, Class.parent?_eq_some_iff.mp h]
  rfl

theorem Class.above_of_parent?_none {c : Class} (h : c.parent? = none) : c.above = [] := by
  obtain ⟨d, above⟩ := c
  cases above with
  | nil => rfl
  | cons e above => exact nomatch h

/-- **The chain of parents of a loaded class is its lineage.** -/
theorem chainFrom_loaded (target : Target) : ∀ {seen : List Class}, Grounded seen →
    (seen.map fun c : Class => c.name).Nodup → ∀ {c : Class}, (∀ p, c.parent? = some p → p ∈ seen) →
      chainFrom (c.parent?.map (·.name)) (seen.map (·.loaded target)) =
        c.ancestors.map (·.loaded target) := by
  intro seen
  induction seen with
  | nil =>
      intro _ _ c hc
      cases hp : c.parent? with
      | some p => exact absurd (hc p hp) List.not_mem_nil
      | none =>
          rw [Class.ancestors, Class.above_of_parent?_none hp]
          rfl
  | cons s ss ih =>
      intro hg hnd c hc
      rw [List.map_cons, List.nodup_cons] at hnd
      cases hp : c.parent? with
      | none =>
          rw [Class.ancestors, Class.above_of_parent?_none hp]
          rfl
      | some p =>
          rw [Option.map_some, List.map_cons, chainFrom, Class.loaded_name]
          rcases List.mem_cons.mp (hc p hp) with rfl | hmem
          · -- the newest class is the parent, and its own chain goes on behind it
            rw [if_pos rfl, Class.loaded_parent, ih hg.2 hnd.2 hg.1, Class.ancestors_of_parent? hp,
              List.map_cons]
          · have hne : s.name ≠ p.name := fun h => hnd.1 (h ▸ List.mem_map_of_mem hmem)
            have hc' : ∀ q, c.parent? = some q → q ∈ ss := by
              intro q hq
              rw [hp] at hq
              cases hq
              exact hmem
            rw [if_neg hne, ← ih hg.2 hnd.2 hc', hp, Option.map_some]

/-! ## One step -/

/-- The registry in which classes have been loaded, listed newest first. -/
def Registry.of (target : Target) (seen : List Class) : Registry String :=
  ⟨seen.reverse.map (·.loaded target)⟩

theorem Registry.of_class? {target : Target} {seen : List Class}
    (hnd : (seen.map fun c : Class => c.name).Nodup) {c : Class} (hc : c ∈ seen) :
    (Registry.of target seen).class? c.name = some (c.loaded target) := by
  have hnames : ((seen.reverse.map (·.loaded target)).map (·.name)).Nodup := by
    rwa [loaded_names, List.map_reverse, List.nodup_reverse]
  rw [Registry.class?, Registry.of, find?_key_eq_some_iff hnames]
  exact ⟨List.mem_map_of_mem (List.mem_reverse.mpr hc), rfl⟩

theorem Registry.of_class?_eq_none {target : Target} {seen : List Class} {n : String}
    (h : n ∉ seen.map fun c : Class => c.name) :
    (Registry.of target seen).class? n = none := by
  rw [Registry.class?, find?_key_eq_none_iff]
  intro hmem
  rw [Registry.of, loaded_names, List.map_reverse, List.mem_reverse] at hmem
  exact h hmem

theorem Class.layout_eq {target : Target} {c : Class} {l : IvarsLayout}
    (h : c.ivarsLayout target = .ok l) : c.layout target = l := by
  rw [Class.layout, h]
  rfl

/-- **A class loads after its ancestors, and becomes what its lineage says.** -/
theorem register_specOf {target : Target} {seen : List Class} {c : Class} (hg : Grounded (c :: seen))
    (hnd : ((c :: seen).map fun c : Class => c.name).Nodup) (hd : c.Distinct) :
    (Registry.of target seen).register (c.specOf (c.layout target)) =
      .ok (Registry.of target (c :: seen)) := by
  rw [List.map_cons, List.nodup_cons] at hnd
  rw [Registry.register_eq_ok_iff]
  refine ⟨Registry.of_class?_eq_none hnd.1, c.parent?.map (·.loaded target), c.table, ?_, ?_, ?_⟩
  · rw [Registry.parentOf, Class.specOf]
    cases hp : c.parent? with
    | none => rfl
    | some p =>
        dsimp only [Option.map_some]
        rw [Registry.of_class? hnd.2 (hg.1 p hp)]
  · have hparent : ((c.parent?.map (·.loaded target)).map (·.table)).getD [] =
        (methodList c.above).map Method.namedSlot := by
      cases hp : c.parent? with
      | none => rw [Class.above_of_parent?_none hp]; rfl
      | some p => rw [Class.parent?_eq_some_iff.mp hp]; rfl
    rw [hparent]
    exact Class.specOf_table hd _
  · have hchain := chainFrom_loaded target hg.2 hnd.2 hg.1
    have hforeign : foreignAncestor? c.parcel.name (c.parent?.map (·.name))
        (Registry.of target seen).classes.reverse =
          (c.ancestors.map (·.loaded target)).find? (·.parcel != c.parcel.name) := by
      rw [foreignAncestor?_eq_find?, Registry.of, ← List.map_reverse, List.reverse_reverse, hchain]
    have halign : ((c.parent?.map (·.loaded target)).map (·.align)) =
        ((c.ancestors.map (·.loaded target)).head?).map (·.align) := by
      rw [List.head?_map]
      rfl
    have hloaded : (Registry.of target seen).loadedOf (c.specOf (c.layout target))
        (c.parent?.map (·.loaded target)) c.table = c.loaded target := by
      rw [Class.loaded_eq, Class.loadedBelow, ← hforeign, ← halign]
      rfl
    rw [hloaded, Registry.of, Registry.of, List.reverse_cons, List.map_append]
    rfl

/-! ## A whole run -/

/-- **Classes load in an order that has parents first.** -/
theorem bootstrap_specs {target : Target} : ∀ {cs seen : List Class} {specs : List (ClassSpec String)},
    Grounded seen → ParentsFirst seen cs →
      ((seen.reverse ++ cs).map fun c : Class => c.name).Nodup → (∀ c ∈ cs, c.Distinct) →
        cs.mapM (·.runtimeSpec target) = .ok specs →
          (Registry.of target seen).bootstrap specs = .ok (Registry.of target (cs.reverse ++ seen))
  | [], seen, specs, _, _, _, _, hs => by
      cases mapM_eq_ok_iff.mp hs
      rfl
  | c :: cs, seen, specs, hg, hp, hnd, hd, hs => by
      cases mapM_eq_ok_iff.mp hs with
      | cons hc hcs =>
          obtain ⟨layout, hlayout, rfl⟩ := Class.runtimeSpec_eq_ok_iff.mp hc
          have hnd' : (((c :: seen).reverse ++ cs).map fun c : Class => c.name).Nodup := by
            rwa [List.reverse_cons, List.append_assoc, List.singleton_append]
          have hseen : ((c :: seen).map fun c : Class => c.name).Nodup := by
            rw [List.map_append, List.map_reverse] at hnd'
            exact List.nodup_reverse.mp (List.Nodup.of_append_left hnd')
          -- `seen` is what has been loaded, so the step adds `c` to it
          have hg' : Grounded (c :: seen) := ⟨hp.1, hg⟩
          have hstep : (Registry.of target seen).register (c.specOf (c.layout target)) = _ :=
            register_specOf hg' hseen (hd c List.mem_cons_self)
          rw [Class.layout_eq hlayout] at hstep
          rw [Registry.bootstrap, List.foldlM_cons, hstep, List.reverse_cons, List.append_assoc]
          exact bootstrap_specs hg' hp.2 hnd' (fun e he => hd e (List.mem_cons_of_mem _ he))
            (mapM_eq_ok_iff.mpr hcs)

/-! ## A hierarchy -/

/-- The classes that have instances, parents before children. -/
def Hierarchy.liveClasses (h : Hierarchy) : List Class := h.classes.filter (!·.inert)

/-- The specifications of the classes that have instances. -/
def Hierarchy.runtimeSpecs (h : Hierarchy) (target : Target) :
    Except BindingError (List (ClassSpec String)) :=
  h.liveClasses.mapM (·.runtimeSpec target)

/-- Leaving out classes that are nobody's parent keeps parents first. -/
theorem ParentsFirst.filter {keep : Class → Bool} : ∀ {l seen : List Class},
    (∀ c ∈ l, ∀ p, c.parent? = some p → keep p = true) → ParentsFirst seen l →
      ParentsFirst (seen.filter keep) (l.filter keep)
  | [], _, _, _ => trivial
  | c :: cs, seen, hkeep, h => by
      have htail := ParentsFirst.filter (fun e he => hkeep e (List.mem_cons_of_mem c he)) h.2
      by_cases hc : keep c = true
      · rw [List.filter_cons_of_pos hc] at htail ⊢
        refine ⟨fun p hp => List.mem_filter.mpr ⟨h.1 p hp, ?_⟩, htail⟩
        exact hkeep c List.mem_cons_self p hp
      · rw [List.filter_cons_of_neg hc] at htail ⊢
        exact htail

section Resolved

variable {parcels : List Parcel} {defs : List ClassDef}

/-- A class with children is not inert. -/
theorem Resolved.parent?_not_inert (h : Resolved parcels defs) {c p : Class}
    (hc : c ∈ preorder defs) (hp : c.parent? = some p) : p.inert = false := by
  have hlin := (mem_preorder_iff h.names).mp hc
  rw [Class.lineage, Class.parent?_eq_some_iff.mp hp] at hlin
  have hname : c.parentName = some p.name := hlin.parent_head
  obtain ⟨q, hq, hqname, hinert⟩ := h.parent _ hlin.mem_of_head _ hname
  have hmem : p.toClassDef ∈ defs := hlin.mem _ (List.mem_cons_of_mem _ List.mem_cons_self)
  have hqp : q = p.toClassDef := eq_of_name_eq h.names hq hmem hqname
  rwa [hqp] at hinert

theorem Resolved.parentsFirst_live (h : Resolved parcels defs) :
    ParentsFirst [] ((preorder defs).filter (!·.inert)) :=
  (parentsFirst_preorder defs).filter fun c hc p hp => by
    rw [h.parent?_not_inert hc hp]
    rfl

end Resolved

theorem mem_liveClasses_iff {h : Hierarchy} {c : Class} :
    c ∈ h.liveClasses ↔ c ∈ h.classes ∧ c.inert = false := by
  rw [Hierarchy.liveClasses, List.mem_filter, Bool.not_eq_true']

theorem mem_classes_of_live {h : Hierarchy} {c : Class} (hc : c ∈ h.liveClasses) : c ∈ h.classes :=
  (mem_liveClasses_iff.mp hc).1

theorem not_inert_of_live {h : Hierarchy} {c : Class} (hc : c ∈ h.liveClasses) : c.inert = false :=
  (mem_liveClasses_iff.mp hc).2

/-- The classes of a hierarchy have passed their check. -/
theorem distinct_of_build {d : Declarations} {h : Hierarchy} {c : Class} (hb : d.build = .ok h)
    (hc : c ∈ h.classes) : c.Distinct ∧ c.check = .ok () := by
  obtain ⟨defs, hres, hclasses, -⟩ := exists_resolved_of_build hb
  rw [hclasses] at hc
  exact ⟨hres.distinct hc, hres.check c hc⟩

/-- The parcel of a class is one of the hierarchy's. -/
theorem parcel_mem_of_build {d : Declarations} {h : Hierarchy} {c : Class} (hb : d.build = .ok h)
    (hc : c ∈ h.classes) : c.parcel ∈ h.parcels := by
  obtain ⟨defs, hres, hclasses, -⟩ := exists_resolved_of_build hb
  rw [hclasses, mem_preorder_iff hres.names] at hc
  exact hres.parcel _ hc.mem_of_head

/-- The names of the classes of a hierarchy are distinct. -/
theorem classes_names_nodup {d : Declarations} {h : Hierarchy} (hb : d.build = .ok h) :
    (h.classes.map fun c : Class => c.name).Nodup := by
  obtain ⟨defs, hres, hclasses, -⟩ := exists_resolved_of_build hb
  rw [hclasses]
  exact preorder_names_nodup hres.names

theorem liveClasses_names_nodup {d : Declarations} {h : Hierarchy} (hb : d.build = .ok h) :
    (h.liveClasses.map fun c : Class => c.name).Nodup :=
  (classes_names_nodup hb).sublist (List.filter_sublist.map _)

/-- **The specifications of a hierarchy load, and every class becomes what its lineage says.** -/
theorem bootstrap_runtimeSpecs {d : Declarations} {h : Hierarchy} {target : Target}
    {specs : List (ClassSpec String)} (hb : d.build = .ok h)
    (hs : h.runtimeSpecs target = .ok specs) :
    ({} : Registry String).bootstrap specs = .ok ⟨h.liveClasses.map (·.loaded target)⟩ := by
  obtain ⟨defs, hres, hclasses, -⟩ := exists_resolved_of_build hb
  have hnd := liveClasses_names_nodup hb
  have hfirst : ParentsFirst [] h.liveClasses := by
    rw [Hierarchy.liveClasses, hclasses]
    exact hres.parentsFirst_live
  have hrun : (Registry.of target []).bootstrap specs =
      .ok (Registry.of target (h.liveClasses.reverse ++ [])) :=
    bootstrap_specs trivial hfirst hnd
      (fun c hc => hres.distinct (hclasses ▸ (List.mem_filter.mp hc).1)) hs
  rwa [Registry.of, Registry.of, List.append_nil, List.reverse_reverse] at hrun

/-- Every class of the hierarchy is then found under its name. -/
theorem class?_of_bootstrap {d : Declarations} {h : Hierarchy} {target : Target} {c : Class}
    (hb : d.build = .ok h) (hc : c ∈ h.liveClasses) :
    (⟨h.liveClasses.map (·.loaded target)⟩ : Registry String).class? c.name =
      some (c.loaded target) := by
  rw [Registry.class?, find?_key_eq_some_iff
    (loaded_names target h.liveClasses ▸ liveClasses_names_nodup hb)]
  exact ⟨List.mem_map_of_mem hc, rfl⟩

/-! ## Calls -/

section Calls

variable {target : Target} {c : Class} {m : String}

theorem Class.find?_table (h : c.Distinct) :
    c.table.find? (·.name == m) = (c.declaration? m).map Method.namedSlot := by
  have hfind := Class.method?_eq_declaration? h.methods m
  rw [← hfind, Class.table, Class.method?, List.find?_map]
  rfl

theorem Class.findIdx?_table :
    c.table.findIdx? (·.name == m) = c.methods.findIdx? (·.name == m) := by
  rw [Class.table, List.findIdx?_map]
  rfl

/-- No declaration counts when none is made on the lineage. -/
theorem Class.declaration?_eq_none_iff :
    c.declaration? m = none ↔ ∀ a ∈ c :: c.ancestors, m ∉ a.ownMethods.map (·.name) := by
  rw [Class.declaration?, List.findSome?_eq_none_iff]
  refine forall₂_congr fun a _ => ?_
  rw [find?_key_eq_none_iff, Class.freshMethods, ClassDef.fresh_names]

/-- What a call of a method on an instance of a class should reach: the implementation of the
nearest declaration. -/
def Class.callOf (c : Class) (m : String) : Except DispatchError String :=
  match c.declaration? m with
  | none => .error (.unknownMethod c.name m)
  | some f => if f.isAbstract then .error (.abstractMethodCall c.name m) else .ok f.impFunc

theorem Class.callOf_eq_unknownMethod_iff :
    c.callOf m = .error (.unknownMethod c.name m) ↔
      ∀ a ∈ c :: c.ancestors, m ∉ a.ownMethods.map (·.name) := by
  rw [← Class.declaration?_eq_none_iff, Class.callOf]
  cases c.declaration? m with
  | none => simp
  | some f => cases h : f.isAbstract <;> simp [h]

/-- A call on a loaded class reaches what it should. -/
theorem dispatch_of_class? {r : Registry String} (hd : c.Distinct)
    (hr : r.class? c.name = some (c.loaded target)) : r.dispatch c.name m = c.callOf m := by
  rw [Registry.dispatch, hr]
  dsimp only
  rw [Class.loaded_table, Class.find?_table hd, Class.callOf]
  cases c.declaration? m with
  | none => rfl
  | some f =>
      rw [Option.map_some, Method.namedSlot, Method.slot]
      cases h : f.isAbstract <;> simp [h]

end Calls

/-- **Calls in a loaded hierarchy.**  The specifications of a hierarchy load.  Every class is then
registered with its method list as its table, slot by slot, and a call reaches the implementation of
the nearest declaration. -/
theorem bootstrap_dispatch_eq_nearest {d : Declarations} {h : Hierarchy} {target : Target}
    {specs : List (ClassSpec String)} (hb : d.build = .ok h)
    (hs : h.runtimeSpecs target = .ok specs) :
    ∃ r, ({} : Registry String).bootstrap specs = .ok r ∧
      r.classes.map (·.name) = h.liveClasses.map (fun c : Class => c.name) ∧
        ∀ c ∈ h.liveClasses,
          (∃ l, r.class? c.name = some l ∧ l.vtable = c.methods.map Method.slot ∧
            ∀ m, l.slotOf? m = c.methods.findIdx? (·.name == m)) ∧
          ∀ m, r.dispatch c.name m = (match c.declaration? m with
              | none => .error (.unknownMethod c.name m)
              | some f =>
                if f.isAbstract then .error (.abstractMethodCall c.name m) else .ok f.impFunc) ∧
            (r.dispatch c.name m = .error (.unknownMethod c.name m) ↔
              ∀ a ∈ c :: c.ancestors, m ∉ a.ownMethods.map (·.name)) := by
  obtain ⟨defs, hres, hclasses, -⟩ := exists_resolved_of_build hb
  refine ⟨_, bootstrap_runtimeSpecs hb hs, loaded_names target h.liveClasses, fun c hc => ?_⟩
  have hd : c.Distinct := hres.distinct (hclasses ▸ (List.mem_filter.mp hc).1)
  have hfound : Registry.class? _ c.name = some (c.loaded target) := class?_of_bootstrap hb hc
  refine ⟨⟨_, hfound, ?_, fun m => Class.findIdx?_table⟩, fun m => ?_⟩
  · rw [LoadedClass.vtable, Class.loaded_table, Class.table, List.map_map]
    rfl
  · rw [dispatch_of_class? hd hfound]
    exact ⟨rfl, Class.callOf_eq_unknownMethod_iff⟩

theorem kennel_dispatch : ∃ h specs r, kennel.build = .ok h ∧ h.runtimeSpecs .lp64 = .ok specs ∧
    ({} : Registry String).bootstrap specs = .ok r ∧
      ∀ c ∈ h.liveClasses, ∀ m, r.dispatch c.name m = (match c.declaration? m with
        | none => .error (.unknownMethod c.name m)
        | some f => if f.isAbstract then .error (.abstractMethodCall c.name m) else .ok f.impFunc) := by
  have hok : (kennel.build.toOption.bind fun h => (h.runtimeSpecs .lp64).toOption).isSome = true := by
    decide +kernel
  cases hb : kennel.build with
  | error e => rw [hb] at hok; cases hok
  | ok h =>
      rw [hb] at hok
      cases hs : h.runtimeSpecs .lp64 with
      | error e => simp [Except.toOption, hs] at hok
      | ok specs =>
          obtain ⟨r, hr, -, hcalls⟩ := bootstrap_dispatch_eq_nearest hb hs
          exact ⟨h, specs, r, rfl, hs, hr, fun c hc m => ((hcalls c hc).2 m).1⟩

end ClassTables
