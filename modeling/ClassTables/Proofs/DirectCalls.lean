import ClassTables.Proofs.FlattenedMethods
import ClassTables.Proofs.MemberPlaces
/-!
# Direct calls reach what the class table holds

Calls of a final method from its own parcel go straight to the implementing function: the class that
binds the method gets a macro in place of a look-up in the class table.  Which function the macro
names is fixed by the class that the caller knows, while the object may be an instance of any
descendant, in any parcel.

No descendant can put something else in the slot.  A declaration under the name of a final method is
refused (`Class.not_declared_of_final`), so the slot is handed down as it is, generation after
generation (`final_slot_kept`), and the look-up that the macro saves would have found the same
function (`directCall_eq_dispatch`).
-/

namespace ClassTables

/-! ## The slot of a final method -/

/-- What is inherited and final is not declared again. -/
theorem Class.not_declared_of_final {c : Class} {m : Method} (hd : c.Distinct)
    (hcheck : c.check = .ok ()) (hm : m ∈ methodList c.above) (hfinal : m.isFinal = true) :
    m.name ∉ c.declaredNames := by
  intro hmem
  obtain ⟨decl, hdecl, hname⟩ := List.mem_map.mp hmem
  have hfind : (methodList c.above).find? (·.name == decl.name) = some m :=
    (find?_key_eq_some_iff (methodList_names_nodup hd.methods.tail)).mpr ⟨hm, hname.symm⟩
  have hover := (Class.check_eq_ok_iff.mp hcheck).2.2 decl hdecl
  have hnot := (checkOverride_eq_ok_iff.mp hover m hfind).1
  rw [hfinal] at hnot
  cases hnot

/-- A child leaves the slot of a final method as it is. -/
theorem final_slot_kept_child {d : ClassDef} {ds : List ClassDef} {m : Method} {i : Nat}
    (hd : (⟨d, ds⟩ : Class).Distinct) (hcheck : (⟨d, ds⟩ : Class).check = .ok ())
    (hi : (methodList ds)[i]? = some m) (hfinal : m.isFinal = true) :
    (methodList (d :: ds))[i]? = some m := by
  rw [getElem?_methodList_cons (hd.methods d List.mem_cons_self) hi, redeclared_of_not_mem]
  rw [d.fresh_names]
  exact Class.not_declared_of_final hd hcheck (List.mem_of_getElem? hi) hfinal

/-- **The slot of a final method holds the same declaration in every descendant.** -/
theorem final_slot_kept {l : List ClassDef} {m : Method} {i : Nat} (hfinal : m.isFinal = true)
    (hi : (methodList l)[i]? = some m) : ∀ {l' : List ClassDef},
      (∀ e ∈ Class.ofLineage l', e.Distinct ∧ e.check = .ok ()) → l <:+ l' →
        (methodList l')[i]? = some m
  | [], _, hsuf => by
      rw [List.suffix_nil.mp hsuf] at hi
      exact hi
  | d :: ds, hall, hsuf => by
      rcases List.suffix_cons_iff.mp hsuf with rfl | hsuf
      · exact hi
      · -- the parent has the slot, and so has its child
        have hparent : (methodList ds)[i]? = some m :=
          final_slot_kept hfinal hi (fun e he => hall e (List.mem_cons_of_mem _ he)) hsuf
        obtain ⟨hd, hcheck⟩ := hall ⟨d, ds⟩ List.mem_cons_self
        exact final_slot_kept_child hd hcheck hparent hfinal

/-! ## Entries of a list -/

section Entries

variable {m : Method}

/-- An entry is the declaration that counts under its name. -/
theorem Class.declaration?_of_mem {c : Class} (hd : c.Distinct) (hm : m ∈ c.methods) :
    c.declaration? m.name = some m := by
  rw [← Class.method?_eq_declaration? hd.methods]
  exact (find?_key_eq_some_iff (methodList_names_nodup hd.methods)).mpr ⟨hm, rfl⟩

/-- Every entry is declared by the class or by one of its ancestors. -/
theorem Class.exists_declaring {c : Class} (hd : c.Distinct) (hm : m ∈ c.methods) :
    ∃ a ∈ c :: c.ancestors, m ∈ a.freshMethods := by
  have hdecl := Class.declaration?_of_mem hd hm
  unfold Class.declaration? at hdecl
  obtain ⟨a, ha, hfind⟩ := List.exists_of_findSome?_eq_some hdecl
  exact ⟨a, ha, List.mem_of_find?_eq_some hfind⟩

/-- The data of a class defines a stub for each abstract method that it declares. -/
theorem Class.abstractMethodDef_mem {a : Class} (hinert : a.inert = false) (hd : a.Distinct)
    (hm : m ∈ a.freshMethods) (habstract : m.isAbstract = true) :
    (⟨m, a⟩ : MethodBinding).abstractMethodDef ∈ a.dataFragment := by
  have hmem : m ∈ a.methods :=
    (mem_methodList_cons (hd.methods _ List.mem_cons_self)).mpr (Or.inl hm)
  have hkind : a.kindOf m ≠ .inherited := by
    intro hk
    rw [kindOf_eq_inherited_iff_ne, ClassDef.declarer_of_mem_fresh hm] at hk
    exact hk rfl
  have hstub : (⟨m, a⟩ : MethodBinding) ∈ a.bindings.filter MethodBinding.needsStub := by
    refine List.mem_filter.mpr ⟨List.mem_map_of_mem hmem, ?_⟩
    unfold MethodBinding.needsStub MethodBinding.kind
    rw [habstract, Bool.and_true, bne_iff_ne]
    exact hkind
  have hdefs : (⟨m, a⟩ : MethodBinding).abstractMethodDef ∈ a.abstractDefs :=
    List.mem_flatMap.mpr ⟨_, hstub, List.mem_cons_self⟩
  unfold Class.dataFragment titled
  rw [hinert]
  simp [hdefs]

end Entries

/-! ## Calls -/

/-- The macro is emitted for direct calls, and for no others. -/
theorem MethodBinding.directCall_mem_iff {b : MethodBinding} :
    .define b.directCall ∈ b.methodDef ↔ b.isDirect = true := by
  unfold methodDef
  by_cases hdirect : b.isDirect = true
  · rw [if_pos hdirect]
    simp [hdirect]
  · rw [if_neg hdirect]
    simp [hdirect]

section Hierarchy

variable {d : Declarations} {h : Hierarchy} {c : Class} {m : Method}

/-- What a call of an entry reaches once a hierarchy is loaded. -/
theorem dispatch_of_mem_methods {target : Target} (hb : d.build = .ok h) (hc : c ∈ h.liveClasses)
    (hm : m ∈ c.methods) :
    (⟨h.liveClasses.map (·.loaded target)⟩ : Registry String).dispatch c.name m.name =
      if m.isAbstract then .error (.abstractMethodCall c.name m.name) else .ok m.impFunc := by
  have hd := (distinct_of_build hb (mem_classes_of_live hc)).1
  rw [dispatch_of_class? hd (class?_of_bootstrap hb hc)]
  unfold Class.callOf
  rw [Class.declaration?_of_mem hd hm]

/-- **A direct call reaches what the class table holds.**  Where a class gets the macro for an entry
of its list, every descendant holds the same declaration in the same slot.  Once the hierarchy is
loaded, looking the method up in the descendant gives the function that the macro calls, unless it is
abstract; the function is then a stub in the data of the class that declares the method. -/
theorem directCall_eq_dispatch {k : Class} (hb : d.build = .ok h) (hk : k ∈ h.liveClasses)
    (hm : m ∈ k.methods)
    (hcall : .define (⟨m, k⟩ : MethodBinding).directCall ∈ (⟨m, k⟩ : MethodBinding).methodDef)
    (hc : c ∈ h.liveClasses) (hkc : k ∈ c :: c.ancestors) :
    (∃ i, k.methods[i]? = some m ∧ c.methods[i]? = some m ∧
      ∀ target specs, h.runtimeSpecs target = .ok specs →
        ∃ r l, ({} : Registry String).bootstrap specs = .ok r ∧ r.class? c.name = some l ∧
          l.slotOf? m.name = some i ∧
            r.dispatch c.name m.name =
              if m.isAbstract then .error (.abstractMethodCall c.name m.name)
              else .ok (⟨m, k⟩ : MethodBinding).impFunc) ∧
      (∃ args, (⟨m, k⟩ : MethodBinding).directCall.value =
        some ((⟨m, k⟩ : MethodBinding).impFunc ++ "(" ++ args)) ∧
      (m.isAbstract = true → ∃ a ∈ h.liveClasses, a.toClassHead = m.declarer ∧
        (⟨m, a⟩ : MethodBinding).abstractMethodDef ∈ a.dataFragment ∧
          (⟨m, a⟩ : MethodBinding).abstractHead.name = (⟨m, k⟩ : MethodBinding).impFunc) := by
  have hfinal : m.isFinal = true := by
    have hdirect := MethodBinding.directCall_mem_iff.mp hcall
    unfold MethodBinding.isDirect at hdirect
    exact (Bool.and_eq_true_iff.mp hdirect).1
  refine ⟨?_, ?_, ?_⟩
  · -- the slot is handed down from `k` to `c`
    obtain ⟨i, hi⟩ := List.mem_iff_getElem?.mp hm
    have hlineage : ∀ e ∈ Class.ofLineage c.lineage, e.Distinct ∧ e.check = .ok () :=
      fun e he => distinct_of_build hb
        (mem_classes_of_live (self_or_ancestor_mem_liveClasses hb hc he))
    have hslot : c.methods[i]? = some m :=
      final_slot_kept hfinal hi hlineage (Class.mem_self_or_ancestors_iff.mp hkc)
    refine ⟨i, hi, hslot, fun target specs hs => ?_⟩
    refine ⟨_, c.loaded target, bootstrap_runtimeSpecs hb hs, class?_of_bootstrap hb hc, ?_,
      dispatch_of_mem_methods hb hc (List.mem_of_getElem? hslot)⟩
    have hd := (distinct_of_build hb (mem_classes_of_live hc)).1
    unfold LoadedClass.slotOf?
    rw [Class.loaded_table, Class.findIdx?_table]
    apply (findIdx?_key_eq_some_iff (methodList_names_nodup hd.methods)).mpr
    rw [List.getElem?_map]
    exact congrArg (Option.map (·.name)) hslot
  · refine ⟨"(" ++ (⟨m, k⟩ : MethodBinding).declaredSelf ++ ")" ++ Params.nameList m.params ++ ")", ?_⟩
    have hopen : "((" = "(" ++ "(" := rfl
    unfold MethodBinding.directCall
    simp only [hopen, String.append_assoc]
  · intro habstract
    have hd := (distinct_of_build hb (mem_classes_of_live hk)).1
    obtain ⟨a, ha, hfresh⟩ := Class.exists_declaring hd hm
    have halive := self_or_ancestor_mem_liveClasses hb hk ha
    have had := (distinct_of_build hb (mem_classes_of_live halive)).1
    exact ⟨a, halive, (ClassDef.declarer_of_mem_fresh hfresh).symm,
      Class.abstractMethodDef_mem (not_inert_of_live halive) had hfresh habstract, rfl⟩

end Hierarchy

def kennelHierarchy : Hierarchy := kennel.build.toOption.getD ⟨[], [], []⟩

theorem kennel_build : kennel.build = .ok kennelHierarchy := by decide +kernel

/-- `Get_Name` is final in `Animal`, so dogs are asked directly; sleds are dogs of another parcel. -/
theorem kennel_directCall : ∃ k ∈ kennelHierarchy.liveClasses, ∃ c ∈ kennelHierarchy.liveClasses,
    ∃ m ∈ k.methods, k.name = "Animal::Dog" ∧ c.name = "Kennel::Sled" ∧ m.name = "Get_Name" ∧
      kennel.build = .ok kennelHierarchy ∧ k ∈ c :: c.ancestors ∧
        .define (⟨m, k⟩ : MethodBinding).directCall ∈ (⟨m, k⟩ : MethodBinding).methodDef ∧
          ∃ i, k.methods[i]? = some m ∧ c.methods[i]? = some m ∧
            ∀ target specs, kennelHierarchy.runtimeSpecs target = .ok specs →
              ∃ r l, ({} : Registry String).bootstrap specs = .ok r ∧ r.class? c.name = some l ∧
                l.slotOf? m.name = some i ∧
                  r.dispatch c.name m.name =
                    if m.isAbstract then .error (.abstractMethodCall c.name m.name)
                    else .ok (⟨m, k⟩ : MethodBinding).impFunc := by
  have hfound : ∃ k ∈ kennelHierarchy.liveClasses, ∃ c ∈ kennelHierarchy.liveClasses,
      ∃ m ∈ k.methods, k.name = "Animal::Dog" ∧ c.name = "Kennel::Sled" ∧ m.name = "Get_Name" ∧
        k ∈ c :: c.ancestors ∧ (⟨m, k⟩ : MethodBinding).isDirect = true := by decide +kernel
  obtain ⟨k, hk, c, hc, m, hm, hkname, hcname, hmname, hkc, hdirect⟩ := hfound
  have hcall := MethodBinding.directCall_mem_iff.mpr hdirect
  exact ⟨k, hk, c, hc, m, hm, hkname, hcname, hmname, kennel_build, hkc, hcall,
    (directCall_eq_dispatch kennel_build hk hm hcall hc hkc).1⟩

end ClassTables
