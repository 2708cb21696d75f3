import ClassTables.Proofs.FieldPlaces
/-!
# The natural layout of a block

C wants the fields of a block apart and in their order, each at a multiple of its alignment, and the
block itself to be a multiple of an alignment that suits all of them (`IvarsLayout.Admissible`).
The layout of a block satisfies this on targets whose scalars have powers of two as their sizes, and
of all placements that do it is the tightest: no field lies further down, and the block is no larger
(`IvarsLayout.ofFields_least`).  So it is the layout that a C compiler gives the struct.  Its sums are
without bound; in 32 bits they are the same up to a size of `2 ^ 32` (`IvarsLayout.ofFields32_eq_iff`).

A block has no layout exactly when a local member is of a type without one, and the first such
member is named (`Class.ivarsLayout_eq_error_iff`).
-/

namespace ClassTables

namespace IvarsLayout

/-- A place that C allows for a field: of its name and size, aligned, and inside the block, whose
alignment suits the field. -/
structure Allows (l : IvarsLayout) (f : String × Extent) (p : FieldPlace) : Prop where
  name : p.name = f.1
  size : p.size = f.2.size
  offset_dvd : f.2.align ∣ p.offset
  inside : p.offset + p.size ≤ l.size
  align_dvd : f.2.align ∣ l.align

/-- A block that holds the given fields, in this order, as C allows it. -/
structure Admissible (fs : List (String × Extent)) (l : IvarsLayout) : Prop where
  placed : List.Forall₂ l.Allows fs l.fields
  /-- Each field ends before the next ones start. -/
  apart : l.fields.Pairwise fun p q => p.offset + p.size ≤ q.offset
  size_dvd : l.align ∣ l.size

variable {fs : List (String × Extent)} {l l' : IvarsLayout}

/-! ## The layout is admissible -/

/-- **Powers of two suit each other.**  The strictest of them is a multiple of the others. -/
theorem admissible_ofFields (hpow : ∀ f ∈ fs, f.2.align.isPowerOfTwo) :
    Admissible fs (ofFields fs) := by
  have hlaid := laidOut_ofFields fs
  have hblock := isPowerOfTwo_align hpow
  refine ⟨?_, hlaid.apart, ?_⟩
  · have hplaced : List.Forall₂ (fun f p => f ∈ fs ∧ (ofFields fs).Suits f p) fs
        (ofFields fs).fields :=
      (List.forall₂_and_left _ _).mpr ⟨fun _ hf => hf, hlaid.suits⟩
    refine hplaced.imp fun f p ⟨hf, hsuits⟩ => ?_
    have halign := hsuits.aligned
    rw [max_eq_left (Nat.pos_of_isPowerOfTwo (hpow f hf))] at halign
    exact ⟨hsuits.name, hsuits.size, halign, hsuits.inside,
      dvd_of_isPowerOfTwo (hpow f hf) hblock hsuits.align_le⟩
  · have hdvd : max (ofFields fs).align 1 ∣ (ofFields fs).size := dvd_roundUp _ _
    rw [max_eq_left (one_le_align fs)] at hdvd
    exact hdvd

/-! ## No admissible block is tighter -/

/-- **Field by field.**  Where the block so far ends before a placement of further fields starts,
each of these fields is added no further down than the placement has it, and the block still ends
where the placement does, or before. -/
theorem foldl_push_le {b : Nat} : ∀ {fs : List (String × Extent)} {qs : List FieldPlace}
    {l : IvarsLayout}, (∀ f ∈ fs, 0 < f.2.align) →
      List.Forall₂ (fun f q => f.2.align ∣ q.offset ∧ q.size = f.2.size) fs qs →
        (qs.Pairwise fun p q => p.offset + p.size ≤ q.offset) → (∀ q ∈ qs, l.size ≤ q.offset) →
          (∀ q ∈ qs, q.offset + q.size ≤ b) → l.size ≤ b →
            (fs.foldl push l).size ≤ b ∧ ∃ ps, (fs.foldl push l).fields = l.fields ++ ps ∧
              List.Forall₂ (fun p q => p.offset ≤ q.offset) ps qs := by
  intro fs
  induction fs with
  | nil =>
      intro qs l _ hplaced _ _ _ hl
      cases hplaced
      exact ⟨hl, [], (List.append_nil _).symm, .nil⟩
  | cons f fs ih =>
      intro qs l hpos hplaced hapart hbehind hend hl
      cases hplaced with
      | @cons _ q _ qs hq hqs =>
          obtain ⟨hf, hpos⟩ := List.forall_mem_cons.mp hpos
          obtain ⟨hnext, hapart⟩ := List.pairwise_cons.mp hapart
          obtain ⟨hlq, -⟩ := List.forall_mem_cons.mp hbehind
          obtain ⟨hqb, hend⟩ := List.forall_mem_cons.mp hend
          have hoffset : roundUp l.size f.2.align ≤ q.offset := by
            refine roundUp_le ?_ hlq
            rw [max_eq_left hf]
            exact hq.1
          have hsize : (l.push f).size ≤ q.offset + q.size := by
            show roundUp l.size f.2.align + f.2.size ≤ _
            rw [hq.2]
            omega
          obtain ⟨hle, ps, hfields, hps⟩ := ih (l := l.push f) hpos hqs hapart
            (fun r hr => hsize.trans (hnext r hr)) hend (hsize.trans hqb)
          refine ⟨hle, ⟨f.1, roundUp l.size f.2.align, f.2.size⟩ :: ps, ?_, .cons hoffset hps⟩
          rw [List.foldl_cons, hfields]
          show (l.fields ++ [_]) ++ ps = _
          rw [List.append_assoc, List.singleton_append]

/-- The alignment of a block is that of one of its fields, if it has any. -/
theorem align_foldl_push_mem : ∀ (fs : List (String × Extent)) (l : IvarsLayout),
    (fs.foldl push l).align = l.align ∨ ∃ f ∈ fs, (fs.foldl push l).align = f.2.align
  | [], _ => Or.inl rfl
  | f :: fs, l => by
      rcases align_foldl_push_mem fs (l.push f) with h | ⟨g, hg, h⟩
      · rw [List.foldl_cons, h]
        rcases max_choice l.align f.2.align with hmax | hmax
        · exact Or.inl hmax
        · exact Or.inr ⟨f, List.mem_cons_self, hmax⟩
      · exact Or.inr ⟨g, List.mem_cons_of_mem f hg, h⟩

/-- Whatever suits all fields is a multiple of the block's alignment. -/
theorem align_ofFields_dvd {n : Nat} (h : ∀ f ∈ fs, f.2.align ∣ n) : (ofFields fs).align ∣ n := by
  rw [ofFields, finish_align]
  rcases align_foldl_push_mem fs {} with heq | ⟨f, hf, heq⟩
  · rw [heq]
    exact Nat.one_dvd n
  · rw [heq]
    exact h f hf

/-- **No admissible block is tighter.** -/
theorem ofFields_least (hpos : ∀ f ∈ fs, 0 < f.2.align) (h : Admissible fs l) :
    (ofFields fs).size ≤ l.size ∧
      List.Forall₂ (fun p q => p.offset ≤ q.offset) (ofFields fs).fields l.fields := by
  have hplaced := h.placed.imp fun _ _ hq => And.intro hq.offset_dvd hq.size
  have hinside : ∀ q ∈ l.fields, q.offset + q.size ≤ l.size := by
    intro q hq
    obtain ⟨_, -, hf⟩ := exists_mem_of_forall₂ h.placed.flip hq
    exact hf.inside
  obtain ⟨hend, ps, hfields, hps⟩ := foldl_push_le (l := {}) hpos hplaced h.apart
    (fun q _ => Nat.zero_le q.offset) hinside (Nat.zero_le _)
  rw [List.nil_append] at hfields
  constructor
  · -- the end of the last field is rounded to an alignment that the other block has too
    refine roundUp_le ?_ hend
    show max (ofFields fs).align 1 ∣ l.size
    rw [max_eq_left (one_le_align fs)]
    refine (align_ofFields_dvd fun f hf => ?_).trans h.size_dvd
    obtain ⟨_, -, hq⟩ := exists_mem_of_forall₂ h.placed hf
    exact hq.align_dvd
  · rw [ofFields, finish_fields, hfields]
    exact hps

end IvarsLayout

/-! ## The block of a class -/

section Block

variable {c : Class} {target : Target}

theorem Class.memberField_eq_error_iff {v : Variable} {e : BindingError} :
    c.memberField target v = .error e ↔
      v.type.extent? target = none ∧ e = .unknownLayout c.name v.name v.type.spelling := by
  rw [Class.memberField]
  cases v.type.extent? target with
  | none => simp [eq_comm]
  | some x => simp

/-- **A block has no layout because of the first member whose type has none.** -/
theorem Class.ivarsLayout_eq_error_iff (hlive : c.inert = false) {e : BindingError} :
    c.ivarsLayout target = .error e ↔ ∃ pre v post, c.localMembers = pre ++ v :: post ∧
      (∀ w ∈ pre, ∃ x, w.type.extent? target = some x) ∧ v.type.extent? target = none ∧
        e = .unknownLayout c.name v.name v.type.spelling := by
  have hfield : ∀ w, (∃ f, c.memberField target w = .ok f) ↔
      ∃ x, w.type.extent? target = some x := by
    intro w
    simp only [Class.memberField_eq_ok_iff]
    constructor
    · rintro ⟨f, -, hx⟩
      exact ⟨f.2, hx⟩
    · rintro ⟨x, hx⟩
      exact ⟨(w.name, x), rfl, hx⟩
  have hdone : ∀ fields : List (String × Extent),
      (pure (c.headFields target ++ fields) : Except BindingError _) ≠ .error e :=
    fun _ h => nomatch h
  have hbody : c.blockFields target = (do
      let members ← c.localMembers.mapM (c.memberField target)
      return c.headFields target ++ members) := by
    rw [Class.blockFields, Class.ensureInstantiable_eq_ok_iff.mpr hlive]
    rfl
  rw [Class.ivarsLayout, map_eq_error_iff, hbody, bind_eq_error_iff]
  simp only [hdone, and_false, exists_false, or_false, mapM_eq_error_iff, hfield,
    Class.memberField_eq_error_iff]

/-- The layout of a class's block that holds the given fields. -/
structure Class.NaturalBlock (c : Class) (target : Target) (fields : List (String × Extent))
    (l : IvarsLayout) : Prop where
  /-- In the core parcel the two pointers of the object header, then the local members in order, each
  with the extent of its type. -/
  inOrder : ∃ members, FieldsOf target c.localMembers members ∧ fields =
    (if c.parcel.isCore then
      [("refcount", .natural target.pointer), ("klass", .natural target.pointer)] else []) ++ members
  admissible : IvarsLayout.Admissible fields l
  /-- No admissible block of these fields is smaller or has any of them at a smaller offset. -/
  least : ∀ l', IvarsLayout.Admissible fields l' → l.size ≤ l'.size ∧
    List.Forall₂ (fun p q => p.offset ≤ q.offset) l.fields l'.fields

/-- **The block of a class has the natural layout.**  On a target of powers of two a class with
instances has a layout of its block unless a local member is of a type without one, and then the
first such member is named; and the layout is the least that C allows. -/
theorem ivarsLayout_natural (hpow : target.PowersOfTwo) (hlive : c.inert = false) :
    ((∃ e, c.ivarsLayout target = .error e) ↔
      ∃ v ∈ c.localMembers, v.type.extent? target = none) ∧
    (∀ e, c.ivarsLayout target = .error e → ∃ pre v post, c.localMembers = pre ++ v :: post ∧
      (∀ w ∈ pre, ∃ x, w.type.extent? target = some x) ∧ v.type.extent? target = none ∧
        e = .unknownLayout c.name v.name v.type.spelling) ∧
    ∀ l, c.ivarsLayout target = .ok l → ∃ fields, c.NaturalBlock target fields l := by
  refine ⟨?_, fun e => (Class.ivarsLayout_eq_error_iff hlive).mp, ?_⟩
  · constructor
    · rintro ⟨e, he⟩
      obtain ⟨pre, v, post, heq, -, hv, -⟩ := (Class.ivarsLayout_eq_error_iff hlive).mp he
      exact ⟨v, heq ▸ List.mem_append_cons_self, hv⟩
    · rintro ⟨v, hv, hnone⟩
      cases hl : c.ivarsLayout target with
      | error e => exact ⟨e, rfl⟩
      | ok l =>
          obtain ⟨-, fields, hfields, -⟩ := Class.ivarsLayout_eq_ok_iff.mp hl
          obtain ⟨f, -, -, hext⟩ := exists_mem_of_forall₂ hfields hv
          exact nomatch hnone.symm.trans hext
  · intro l hl
    obtain ⟨-, members, hmembers, rfl⟩ := Class.ivarsLayout_eq_ok_iff.mp hl
    have halign : ∀ f ∈ c.headFields target ++ members, f.2.align.isPowerOfTwo := by
      intro f hf
      have hscalar := Class.scalar_of_mem_blockFields hpow hmembers hf
      rw [hscalar.align]
      exact hscalar.size
    refine ⟨_, ⟨members, hmembers, rfl⟩, IvarsLayout.admissible_ofFields halign, fun l' hl' => ?_⟩
    exact IvarsLayout.ofFields_least (fun f hf => Nat.pos_of_isPowerOfTwo (halign f hf)) hl'

end Block

/-! ## A block with padding inside, and a type that nobody knows

```text
Clownfish::Hook   refcount 0..8   klass 8..16   armed 16..17   shots 20..24   size 24
Clownfish::Trap   ... bait: struct bait, no layout
```
-/

/-- A core class with a gap in its block, and one that holds a struct by value. -/
def hooks : Declarations :=
  { parcels := [{ name := "Clownfish", nickname := some "Cfish" }]
    classes :=
      [{ name := "Clownfish::Hook", parcel := "Clownfish",
         members := [⟨"armed", "bool"⟩, ⟨"shots", "int32_t"⟩] },
       { name := "Clownfish::Trap", parcel := "Clownfish", parent := some "Clownfish::Hook",
         members := [⟨"bait", "struct bait"⟩, ⟨"spare", "struct bait"⟩] }] }

def hooksHierarchy : Hierarchy := hooks.build.toOption.getD ⟨[], [], []⟩

/-- The block of a hook is the least there is; that of a trap fails at its bait. -/
theorem hooks_natural : Target.lp64.PowersOfTwo ∧
    (∃ c ∈ hooksHierarchy.classes, c.inert = false ∧ ∃ l fields,
      c.ivarsLayout .lp64 = .ok l ∧ c.NaturalBlock .lp64 fields l ∧
        l = ⟨[⟨"refcount", 0, 8⟩, ⟨"klass", 8, 8⟩, ⟨"armed", 16, 1⟩, ⟨"shots", 20, 4⟩], 24, 8⟩) ∧
    ∃ c ∈ hooksHierarchy.classes, c.inert = false ∧ ∃ pre v post,
      c.localMembers = pre ++ v :: post ∧ (∀ w ∈ pre, ∃ x, w.type.extent? .lp64 = some x) ∧
        v.type.extent? .lp64 = none ∧
          c.ivarsLayout .lp64 = .error (.unknownLayout c.name v.name v.type.spelling) ∧
            v.name = "bait" := by
  have hhook : ∃ c ∈ hooksHierarchy.classes, c.inert = false ∧ c.ivarsLayout .lp64 = .ok
      ⟨[⟨"refcount", 0, 8⟩, ⟨"klass", 8, 8⟩, ⟨"armed", 16, 1⟩, ⟨"shots", 20, 4⟩], 24, 8⟩ := by
    decide +kernel
  have htrap : ∃ c ∈ hooksHierarchy.classes, c.inert = false ∧ c.ivarsLayout .lp64 =
      .error (.unknownLayout "Clownfish::Trap" "bait" "struct bait") := by
    decide +kernel
  refine ⟨lp64_powersOfTwo, ?_, ?_⟩
  · obtain ⟨c, hc, hlive, hl⟩ := hhook
    obtain ⟨fields, hnatural⟩ := (ivarsLayout_natural lp64_powersOfTwo hlive).2.2 _ hl
    exact ⟨c, hc, hlive, _, fields, hl, hnatural, rfl⟩
  · obtain ⟨c, hc, hlive, herror⟩ := htrap
    obtain ⟨pre, v, post, hsplit, hpre, hnone, heq⟩ :=
      (ivarsLayout_natural lp64_powersOfTwo hlive).2.1 _ herror
    have hname := (BindingError.unknownLayout.inj heq).2.1.symm
    exact ⟨c, hc, hlive, pre, v, post, hsplit, hpre, hnone, heq ▸ herror, hname⟩

end ClassTables
