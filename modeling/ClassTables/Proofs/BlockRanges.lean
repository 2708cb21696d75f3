import ClassTables.Proofs.Layout
import ClassTables.Proofs.StableSlots
import Mathlib.Order.Bounds.Basic
/-!
# Blocks of different parcels lie apart

An instance has one block of members for every parcel that its lineage passes through without a
break.  The store knows where a block starts and how large an instance is; how large the block is
stands in the specification only.  So everything here is about a store together with the
specifications that it has accepted (`ClassStore.accepted`), of any sizes and alignments.

Each class is made of its specification, of its parent and of its nearest ancestor of another parcel
(`MadeOf`), and a class that is loaded later changes neither of them (`MadeOf.push`).  The instance of
the ancestor ends before the block of the class starts (`Made.allocSize_le_offset`), and with it all
blocks further up.  Places and sizes are sums without bound, those of a machine as long as they fit in
its words.

Main statement: `separate_blocks_after`.
-/

namespace ClassTables

open Relation

variable {F : Type}

namespace ClassStore

/-! ## Specifications that were accepted -/

/-- The specifications that calls load into a store, in loading order: all those of a call that
succeeds, and none of a call that fails. -/
def accepted (s : ClassStore F) : List (List (ClassSpec F)) → List (ClassSpec F)
  | [] => []
  | specs :: calls =>
    match s.bootstrap specs with
    | (s', .ok ()) => specs ++ s'.accepted calls
    | (s', .error _) => s'.accepted calls

/-- What calls lead to, one call for all that was accepted leads to. -/
theorem registerAll_accepted : ∀ (calls : List (List (ClassSpec F))) (s : ClassStore F),
    s.registerAll (s.accepted calls) =
      (calls.foldl (fun s specs => (s.bootstrap specs).1) s, .ok ())
  | [], s => rfl
  | specs :: calls, s => by
      rw [accepted, List.foldl_cons]
      cases hcall : s.bootstrap specs with
      | mk s' res =>
          cases res with
          | ok u =>
              show s.registerAll (specs ++ s'.accepted calls) = _
              rw [registerAll_append, bootstrap_eq_ok_iff.mp hcall]
              exact registerAll_accepted calls s'
          | error e =>
              obtain rfl := bootstrap_eq_error hcall
              exact registerAll_accepted calls s'

/-- A store that classes were loaded into is the kept form of a registry. -/
theorem exists_stored_of_registerAll {s : ClassStore F} {specs : List (ClassSpec F)}
    (h : ({} : ClassStore F).registerAll specs = (s, .ok ())) :
    ∃ r : Registry F, ({} : Registry F).bootstrap specs = .ok r ∧ s = r.stored := by
  have hkept := Registry.sound_empty.registerAll_stored specs
  have hempty : ({} : Registry F).stored = {} := rfl
  rw [hempty, h] at hkept
  cases hboot : ({} : Registry F).bootstrap specs with
  | error e =>
      rw [hboot] at hkept
      obtain ⟨s', hkept⟩ := hkept
      cases hkept
  | ok r =>
      rw [hboot] at hkept
      exact ⟨r, rfl, congrArg Prod.fst hkept.1⟩

/-! ## Ancestors of another parcel -/

section Ancestors

variable (s : ClassStore F)

/-- The second class is the nearest ancestor of the first one outside a parcel: the way up to it leads
through classes of the parcel. -/
def NearestOutside (parcel : String) (c a : StoredClass F) : Prop :=
  ∃ b, ReflTransGen (fun x y => s.parentOf? x = some y ∧ y.parcel = parcel) c b ∧
    s.parentOf? b = some a ∧ a.parcel ≠ parcel

/-- The second class is the nearest ancestor of the first one whose parcel is another one. -/
def NearestForeign (c a : StoredClass F) : Prop := s.NearestOutside c.parcel c a

/-- The block of the second class is one of those that an instance of the first one has: that of the
class itself, that of its nearest ancestor of another parcel, that of this one's, and so on. -/
def HasBlock : StoredClass F → StoredClass F → Prop := ReflTransGen s.NearestForeign

/-- The nearest ancestor of another parcel as loading finds it. -/
def foreignOf? (c : StoredClass F) : Option (StoredClass F) :=
  StoredClass.foreignFrom? c.parcel c.parent s.classes.reverse

variable {s} {c a d : StoredClass F} {parcel : String}

/-- Only the parent is looked at, and then what is outside for the parent. -/
theorem nearestOutside_iff :
    s.NearestOutside parcel c a ↔ ∃ p, s.parentOf? c = some p ∧
      (p.parcel ≠ parcel ∧ p = a ∨ p.parcel = parcel ∧ s.NearestOutside parcel p a) := by
  constructor
  · rintro ⟨b, hway, hlast, hne⟩
    rcases hway.cases_head with rfl | ⟨p, ⟨hp, hsame⟩, hway⟩
    · exact ⟨a, hlast, Or.inl ⟨hne, rfl⟩⟩
    · exact ⟨p, hp, Or.inr ⟨hsame, b, hway, hlast, hne⟩⟩
  · rintro ⟨p, hp, ⟨hne, rfl⟩ | ⟨hsame, b, hway, hlast, hne⟩⟩
    · exact ⟨c, .refl, hp, hne⟩
    · exact ⟨b, .head ⟨hp, hsame⟩ hway, hlast, hne⟩

/-- Classes that stand behind a place are passed over. -/
theorem foreignFrom?_append {place : Option Nat} {cs : List (StoredClass F)}
    (h : ∀ j, place = some j → j < cs.length) : ∀ newer : List (StoredClass F),
    StoredClass.foreignFrom? parcel place (newer ++ cs) =
      StoredClass.foreignFrom? parcel place cs
  | [] => rfl
  | x :: newer => by
      cases place with
      | none => cases cs <;> rfl
      | some j =>
          have hlt := h j rfl
          have hne : j ≠ (newer ++ cs).length := by
            rw [List.length_append]
            omega
          rw [List.cons_append, StoredClass.foreignFrom?, if_neg hne]
          exact foreignFrom?_append h newer

/-- The walk looks at the class that stands at the place, and then goes on to its parent. -/
theorem foreignFrom?_some {j : Nat} (hj : s.classes[j]? = some a)
    (hparent : ∀ k, a.parent = some k → k < j) :
    StoredClass.foreignFrom? parcel (some j) s.classes.reverse =
      if a.parcel ≠ parcel then some a
      else StoredClass.foreignFrom? parcel a.parent s.classes.reverse := by
  obtain ⟨front, rear, hsplit, rfl⟩ :
      ∃ front rear, s.classes = front ++ a :: rear ∧ front.length = j := by
    obtain ⟨hlt, rfl⟩ := List.getElem?_eq_some_iff.mp hj
    refine ⟨s.classes.take j, s.classes.drop (j + 1), ?_, List.length_take_of_le hlt.le⟩
    rw [← List.drop_eq_getElem_cons hlt, List.take_append_drop]
  rw [hsplit, List.reverse_append, List.reverse_cons]
  have hup : StoredClass.foreignFrom? parcel a.parent (rear.reverse ++ [a] ++ front.reverse) =
      StoredClass.foreignFrom? parcel a.parent front.reverse := by
    apply foreignFrom?_append
    simpa only [List.length_reverse] using hparent
  have hdown : StoredClass.foreignFrom? parcel (some front.length)
      (rear.reverse ++ [a] ++ front.reverse) =
        StoredClass.foreignFrom? parcel (some front.length) (a :: front.reverse) := by
    rw [List.append_assoc]
    apply foreignFrom?_append
    rintro k ⟨⟩
    simp
  rw [hup, hdown, StoredClass.foreignFrom?, if_pos List.length_reverse.symm]

/-- **The walk finds the nearest class outside the parcel.** -/
theorem WellPlaced.foreignFrom?_eq_some_iff (h : s.WellPlaced) :
    ∀ (i : Nat) (c : StoredClass F), s.classes[i]? = some c →
      (StoredClass.foreignFrom? parcel c.parent s.classes.reverse = some a ↔
        s.NearestOutside parcel c a) := by
  intro i
  -- parents stand in front
  induction i using Nat.strongRecOn with
  | ind i ih =>
      intro c hc
      rw [nearestOutside_iff]
      cases hplace : c.parent with
      | none =>
          have hnone : s.parentOf? c = none := by
            rw [parentOf?, hplace]
            rfl
          rw [hnone]
          cases s.classes.reverse <;> simp [StoredClass.foreignFrom?]
      | some j =>
          have hji : j < i := h.parents i c hc j hplace
          obtain ⟨p, hp⟩ : ∃ p, s.classes[j]? = some p :=
            ⟨_, List.getElem?_eq_getElem (hji.trans (List.getElem?_eq_some_iff.mp hc).1)⟩
          have hparent : s.parentOf? c = some p := by
            rw [parentOf?, hplace]
            exact hp
          rw [foreignFrom?_some hp (h.parents j p hp), hparent]
          simp only [Option.some.injEq, exists_eq_left', ← ih j hji p hp]
          by_cases hsame : p.parcel = parcel
          · simp [hsame]
          · simp [hsame]

theorem WellPlaced.foreignOf?_eq_some_iff (h : s.WellPlaced) (hc : c ∈ s.classes) :
    s.foreignOf? c = some a ↔ s.NearestForeign c a := by
  obtain ⟨i, hi⟩ := List.mem_iff_getElem?.mp hc
  exact h.foreignFrom?_eq_some_iff i c hi

theorem parentOf?_mem (h : s.parentOf? c = some a) : a ∈ s.classes := by
  obtain ⟨j, -, hj⟩ := Option.bind_eq_some_iff.mp h
  exact List.mem_of_getElem? hj

theorem NearestForeign.mem (h : s.NearestForeign c a) : a ∈ s.classes := by
  obtain ⟨b, -, hlast, -⟩ := h
  exact parentOf?_mem hlast

theorem HasBlock.mem (h : s.HasBlock c a) (hc : c ∈ s.classes) : a ∈ s.classes := by
  rcases h.cases_tail with rfl | ⟨b, -, hlast⟩
  · exact hc
  · exact hlast.mem

/-- There is at most one way up. -/
theorem nearestOutside_unique (hc : s.NearestOutside parcel c a) :
    s.NearestOutside parcel c d → a = d := by
  obtain ⟨b, hway, hlast, hne⟩ := hc
  induction hway using ReflTransGen.head_induction_on with
  | refl =>
      intro hd
      obtain ⟨p, hp, ⟨-, rfl⟩ | ⟨hsame, -⟩⟩ := nearestOutside_iff.mp hd
      · exact Option.some.inj (hlast.symm.trans hp)
      · cases hlast.symm.trans hp
        exact absurd hsame hne
  | head hstep _ ih =>
      intro hd
      obtain ⟨p, hp, ⟨hother, -⟩ | ⟨-, hup⟩⟩ := nearestOutside_iff.mp hd
      · cases hstep.1.symm.trans hp
        exact absurd hstep.2 hother
      · cases hstep.1.symm.trans hp
        exact ih hup

theorem nearestForeign_rightUnique : Relator.RightUnique s.NearestForeign :=
  fun _ _ _ ha hd => nearestOutside_unique ha hd

end Ancestors

/-! ## Classes and their specifications -/

section Specs

/-- The class has the name, the parcel and the parent that the specification says. -/
structure Describes (s : ClassStore F) (spec : ClassSpec F) (c : StoredClass F) : Prop where
  name : c.name = spec.name
  parcel : c.parcel = spec.parcel
  parent : (s.parentOf? c).map (·.name) = spec.parent

/-- The class is what loading makes of the specification. -/
structure MadeOf (s : ClassStore F) (spec : ClassSpec F) (c : StoredClass F) : Prop
    extends s.Describes spec c where
  place : ∀ j, c.parent = some j → j < s.classes.length
  offset : c.ivarsOffset =
    ((s.foreignOf? c).map fun a => roundUp a.allocSize spec.ivarsAlign).getD 0
  align : c.align = max (((s.parentOf? c).map (·.align)).getD 1) spec.ivarsAlign
  size : c.allocSize = roundUp (c.ivarsOffset + spec.ivarsSize) c.align

variable {s s' : ClassStore F} {spec : ClassSpec F} {specs : List (ClassSpec F)}
  {c d : StoredClass F}

theorem parentOf?_push (h : ∀ j, c.parent = some j → j < s.classes.length) :
    (s.push d).parentOf? c = s.parentOf? c := by
  unfold parentOf?
  cases hplace : c.parent with
  | none => rfl
  | some j => exact List.getElem?_append_left (h j hplace)

theorem foreignOf?_push (h : ∀ j, c.parent = some j → j < s.classes.length) :
    (s.push d).foreignOf? c = s.foreignOf? c := by
  unfold foreignOf?
  have hpush : (s.push d).classes.reverse = [d] ++ s.classes.reverse := List.reverse_concat
  rw [hpush]
  apply foreignFrom?_append
  simpa only [List.length_reverse] using h

/-- Loading another class changes nothing for a class whose parent is there. -/
theorem MadeOf.push (h : s.MadeOf spec c) (d : StoredClass F) : (s.push d).MadeOf spec c where
  name := h.name
  parcel := h.parcel
  parent := by rw [parentOf?_push h.place, h.parent]
  place := fun j hj => (h.place j hj).trans_le (List.prefix_append s.classes [d]).length_le
  offset := by rw [foreignOf?_push h.place, h.offset]
  align := by rw [parentOf?_push h.place, h.align]
  size := h.size

/-- The new class is made for the place that the name of the parent leads to. -/
theorem newClass_eq_ok (h : s.newClass spec = .ok c) :
    ∃ place table, s.parentPlace spec = .ok place ∧ c = s.classOf spec place table := by
  unfold newClass at h
  cases hname : s.index.get? spec.name with
  | some i =>
      rw [hname] at h
      cases h
  | none =>
      rw [hname] at h
      change (s.parentPlace spec >>= _) = _ at h
      obtain ⟨place, hplace, h⟩ := bind_eq_ok_iff.mp h
      obtain ⟨table, -, h⟩ := bind_eq_ok_iff.mp h
      cases h
      exact ⟨place, table, hplace, rfl⟩

/-- The place of a parent is that of a class with the name of the parent. -/
theorem parentPlace_eq_ok {r : Registry F} (hr : r.Sound) {place : Option Nat}
    (h : r.stored.parentPlace spec = .ok place) :
    (∀ j, place = some j → j < r.stored.classes.length) ∧
      (place.bind (r.stored.classes[·]?)).map (·.name) = spec.parent := by
  unfold parentPlace at h
  cases hparent : spec.parent with
  | none =>
      rw [hparent] at h
      cases h
      exact ⟨fun _ hj => (nomatch hj), rfl⟩
  | some n =>
      rw [hparent] at h
      dsimp only at h
      cases hget : r.stored.index.get? n with
      | none =>
          rw [hget] at h
          cases h
      | some j =>
          rw [hget] at h
          cases h
          have hname : r.names[j]? = some n := (NameIndex.get?_ofNames_eq_some_iff hr.names).mp hget
          rw [Registry.getElem?_names, Option.map_eq_some_iff] at hname
          obtain ⟨c, hc, rfl⟩ := hname
          have hstored : r.stored.classes[j]? = some (c.stored r.names) := by
            rw [Registry.stored_classes, List.getElem?_map, hc, Option.map_some]
          constructor
          · rintro k ⟨⟩
            exact (List.getElem?_eq_some_iff.mp hstored).1
          · rw [Option.bind_some, hstored]
            rfl

/-- **Loading makes the class of the specification.** -/
theorem madeOf_newClass {r : Registry F} (hr : r.Sound) (h : r.stored.newClass spec = .ok c) :
    (r.stored.push c).MadeOf spec c := by
  obtain ⟨place, table, hplace, rfl⟩ := newClass_eq_ok h
  obtain ⟨hlt, hname⟩ := parentPlace_eq_ok hr hplace
  apply MadeOf.push
  exact
    { name := rfl
      parcel := rfl
      parent := hname
      place := hlt
      offset := rfl
      align := rfl
      size := rfl }

/-- **Classes and specifications go in step.** -/
theorem madeOf_of_registerAll (h : ({} : ClassStore F).registerAll specs = (s, .ok ())) :
    List.Forall₂ s.MadeOf specs s.classes := by
  induction specs using List.reverseRecOn generalizing s with
  | nil =>
      cases h
      exact .nil
  | append_singleton specs spec ih =>
      rw [registerAll_append] at h
      cases hfront : ({} : ClassStore F).registerAll specs with
      | mk s₁ res =>
          rw [hfront] at h
          cases res with
          | error e => cases h
          | ok u =>
              have hreg : s₁.register spec = (s, .ok ()) :=
                bootstrap_singleton_eq_ok_iff.mp (bootstrap_eq_ok_iff.mpr h)
              obtain ⟨r, hboot, rfl⟩ := exists_stored_of_registerAll hfront
              have hall := ih hfront
              unfold register at hreg
              cases hnew : r.stored.newClass spec with
              | error e =>
                  rw [hnew] at hreg
                  cases hreg
              | ok c =>
                  rw [hnew] at hreg
                  cases hreg
                  apply List.rel_append
                  · exact hall.imp fun _ c hc => hc.push _
                  · exact .cons (madeOf_newClass (Registry.sound_of_bootstrap hboot) hnew) .nil

end Specs

/-! ## Ranges -/

section Ranges

/-- The specification of a class is the one with its name. -/
def IsSpecOf (specs : List (ClassSpec F)) (spec : ClassSpec F) (c : StoredClass F) : Prop :=
  spec ∈ specs ∧ spec.name = c.name

/-- What the instances of a class have to be aligned to: one, and the alignments of the blocks of the
class and of all its ancestors. -/
def alignments (s : ClassStore F) (specs : List (ClassSpec F)) (c : StoredClass F) : Set Nat :=
  {n | n = 1 ∨ ∃ a spec, (a = c ∨ s.Ancestor c a) ∧ IsSpecOf specs spec a ∧ n = spec.ivarsAlign}

/-- A store, and the specifications that its classes are made of. -/
structure Made (s : ClassStore F) (specs : List (ClassSpec F)) : Prop where
  placed : s.WellPlaced
  classes : List.Forall₂ s.MadeOf specs s.classes

variable {s : ClassStore F} {specs : List (ClassSpec F)} {spec spec' : ClassSpec F}
  {c a f g : StoredClass F}

/-! ### One class -/

theorem Made.spec_names_nodup (h : s.Made specs) : (specs.map (·.name)).Nodup := by
  have hnames : List.Forall₂ (· = ·) (specs.map (·.name)) (s.classes.map (·.name)) := by
    rw [List.forall₂_map_left_iff, List.forall₂_map_right_iff]
    exact h.classes.imp fun _ _ hmade => hmade.name.symm
  rw [List.forall₂_eq_eq_eq] at hnames
  rw [hnames]
  exact h.placed.distinct

theorem Made.exists_isSpecOf (h : s.Made specs) (hc : c ∈ s.classes) :
    ∃ spec, IsSpecOf specs spec c := by
  obtain ⟨spec, hspec, hmade⟩ := exists_mem_of_forall₂ h.classes.flip hc
  exact ⟨spec, hspec, hmade.name.symm⟩

theorem Made.isSpecOf_unique (h : s.Made specs) (hspec : IsSpecOf specs spec c)
    (hspec' : IsSpecOf specs spec' c) : spec = spec' :=
  List.inj_on_of_nodup_map h.spec_names_nodup hspec.1 hspec'.1 (hspec.2.trans hspec'.2.symm)

theorem Made.madeOf (h : s.Made specs) (hc : c ∈ s.classes) (hspec : IsSpecOf specs spec c) :
    s.MadeOf spec c := by
  obtain ⟨d, hd, hmade⟩ := exists_mem_of_forall₂ h.classes hspec.1
  obtain rfl := List.inj_on_of_nodup_map h.placed.distinct hd hc (hmade.name.trans hspec.2)
  exact hmade

theorem MadeOf.end_le (h : s.MadeOf spec c) : c.ivarsOffset + spec.ivarsSize ≤ c.allocSize := by
  rw [h.size]
  exact le_roundUp _ _

theorem MadeOf.align_dvd_offset (h : s.MadeOf spec c) :
    max spec.ivarsAlign 1 ∣ c.ivarsOffset := by
  rw [h.offset]
  cases s.foreignOf? c with
  | none => exact Nat.dvd_zero _
  | some a => exact dvd_roundUp _ _

/-- An instance is aligned to what the instances of the parent are aligned to, and to its block. -/
theorem Made.mem_alignments_iff (h : s.Made specs) (hspec : IsSpecOf specs spec c) {n : Nat} :
    n ∈ s.alignments specs c ↔
      n = spec.ivarsAlign ∨ n = 1 ∨ ∃ a, s.parentOf? c = some a ∧ n ∈ s.alignments specs a := by
  constructor
  · rintro (hone | ⟨b, spec', rfl | hb, hspec', rfl⟩)
    · exact Or.inr (Or.inl hone)
    · exact Or.inl (congrArg _ (h.isSpecOf_unique hspec' hspec))
    · obtain ⟨a, ha, hab⟩ := TransGen.head'_iff.mp hb
      have hup := reflTransGen_iff_eq_or_transGen.mp hab
      exact Or.inr (Or.inr ⟨a, ha, Or.inr ⟨b, spec', hup, hspec', rfl⟩⟩)
  · rintro (rfl | hone | ⟨a, ha, hone | ⟨b, spec', hup, hspec', rfl⟩⟩)
    · exact Or.inr ⟨c, spec, Or.inl rfl, hspec, rfl⟩
    · exact Or.inl hone
    · exact Or.inl hone
    · have hb : s.Ancestor c b := TransGen.head' ha (reflTransGen_iff_eq_or_transGen.mpr hup)
      exact Or.inr ⟨b, spec', Or.inr hb, hspec', rfl⟩

/-- **The alignment of an instance is the strictest one on the lineage.** -/
theorem Made.isGreatest_align (h : s.Made specs) :
    ∀ (i : Nat) (c : StoredClass F), s.classes[i]? = some c →
      IsGreatest (s.alignments specs c) c.align := by
  intro i
  -- parents stand in front
  induction i using Nat.strongRecOn with
  | ind i ih =>
      intro c hi
      have hc : c ∈ s.classes := List.mem_of_getElem? hi
      obtain ⟨spec, hspec⟩ := h.exists_isSpecOf hc
      rw [(h.madeOf hc hspec).align, max_comm]
      cases hparent : s.parentOf? c with
      | none =>
          have hset : s.alignments specs c = insert spec.ivarsAlign {1} := by
            ext n
            rw [h.mem_alignments_iff hspec, hparent]
            simp
          rw [hset]
          exact isGreatest_singleton.insert _
      | some a =>
          have hset : s.alignments specs c = insert spec.ivarsAlign (s.alignments specs a) := by
            ext n
            rw [h.mem_alignments_iff hspec, hparent]
            simp only [Option.some.injEq, exists_eq_left']
            exact or_congr_right (or_iff_right_of_imp Or.inl)
          obtain ⟨j, hplace, hj⟩ := Option.bind_eq_some_iff.mp hparent
          rw [hset]
          exact (ih j (h.placed.parents i c hi j hplace) a hj).insert _

theorem Made.align_dvd_allocSize (h : s.Made specs) (hc : c ∈ s.classes) :
    c.align ∣ c.allocSize := by
  obtain ⟨spec, hspec⟩ := h.exists_isSpecOf hc
  obtain ⟨i, hi⟩ := List.mem_iff_getElem?.mp hc
  have hpos : 1 ≤ c.align := (h.isGreatest_align i c hi).2 (Or.inl rfl)
  have hdvd := dvd_roundUp (c.ivarsOffset + spec.ivarsSize) c.align
  rwa [max_eq_left hpos, ← (h.madeOf hc hspec).size] at hdvd

/-! ### The blocks of an instance -/

/-- **The instance of the ancestor ends before the block of the class starts.** -/
theorem Made.allocSize_le_offset (h : s.Made specs) (hc : c ∈ s.classes)
    (ha : s.NearestForeign c a) : a.allocSize ≤ c.ivarsOffset := by
  obtain ⟨spec, hspec⟩ := h.exists_isSpecOf hc
  have hfound := (h.placed.foreignOf?_eq_some_iff hc).mpr ha
  rw [(h.madeOf hc hspec).offset, hfound]
  exact le_roundUp _ _

theorem Made.offset_le_allocSize (h : s.Made specs) (hc : c ∈ s.classes) :
    c.ivarsOffset ≤ c.allocSize := by
  obtain ⟨spec, hspec⟩ := h.exists_isSpecOf hc
  exact (Nat.le_add_right _ _).trans (h.madeOf hc hspec).end_le

/-- All blocks further up end before that of the class starts. -/
theorem Made.allocSize_le_of_above (h : s.Made specs) (hc : c ∈ s.classes)
    (ha : TransGen s.NearestForeign c a) : a.allocSize ≤ c.ivarsOffset := by
  induction ha using TransGen.head_induction_on with
  | single hstep => exact h.allocSize_le_offset hc hstep
  | @head c b hstep _ ih =>
      calc a.allocSize
        _ ≤ b.ivarsOffset := ih hstep.mem
        _ ≤ b.allocSize := h.offset_le_allocSize hstep.mem
        _ ≤ c.ivarsOffset := h.allocSize_le_offset hc hstep

theorem Made.allocSize_le (h : s.Made specs) (hc : c ∈ s.classes) (hf : s.HasBlock c f) :
    f.allocSize ≤ c.allocSize := by
  rcases reflTransGen_iff_eq_or_transGen.mp hf with rfl | habove
  · exact Nat.le_refl _
  · exact (h.allocSize_le_of_above hc habove).trans (h.offset_le_allocSize hc)

/-- Of two blocks of an instance one lies above the other. -/
theorem HasBlock.above_or_above (hf : s.HasBlock c f) (hg : s.HasBlock c g) (hne : f ≠ g) :
    TransGen s.NearestForeign f g ∨ TransGen s.NearestForeign g f := by
  rcases ReflTransGen.total_of_right_unique nearestForeign_rightUnique hf hg with hfg | hgf
  · exact Or.inl ((reflTransGen_iff_eq_or_transGen.mp hfg).resolve_left hne.symm)
  · exact Or.inr ((reflTransGen_iff_eq_or_transGen.mp hgf).resolve_left hne)

end Ranges

/-! ## After any calls -/

/-- What the specifications of the loaded classes say about the blocks of an instance. -/
structure SeparateBlocks (s : ClassStore F) (specs : List (ClassSpec F)) : Prop where
  /-- The classes are those of the specifications, in their order. -/
  described : List.Forall₂ s.Describes specs s.classes
  /-- A name belongs to one specification. -/
  distinct : (specs.map (·.name)).Nodup
  /-- Of two blocks of an instance one ends before the other one starts. -/
  apart : ∀ c ∈ s.classes, ∀ f g, s.HasBlock c f → s.HasBlock c g → f ≠ g →
    ∀ sf sg, IsSpecOf specs sf f → IsSpecOf specs sg g →
      f.ivarsOffset + sf.ivarsSize ≤ g.ivarsOffset ∨ g.ivarsOffset + sg.ivarsSize ≤ f.ivarsOffset
  /-- All blocks of an instance end within it. -/
  inside : ∀ c ∈ s.classes, ∀ f, s.HasBlock c f → ∀ spec, IsSpecOf specs spec f →
    f.ivarsOffset + spec.ivarsSize ≤ c.allocSize
  aligned : ∀ c ∈ s.classes, ∀ spec, IsSpecOf specs spec c → max spec.ivarsAlign 1 ∣ c.ivarsOffset
  strictest : ∀ c ∈ s.classes, IsGreatest (s.alignments specs c) c.align
  rounded : ∀ c ∈ s.classes, c.align ∣ c.allocSize

/-- **A store made of specifications has separate blocks.** -/
theorem Made.separateBlocks {s : ClassStore F} {specs : List (ClassSpec F)} (h : s.Made specs) :
    s.SeparateBlocks specs where
  described := h.classes.imp fun _ _ hmade => hmade.toDescribes
  distinct := h.spec_names_nodup
  apart := by
    intro c hc f g hf hg hne sf sg hsf hsg
    have hendf := (h.madeOf (hf.mem hc) hsf).end_le
    have hendg := (h.madeOf (hg.mem hc) hsg).end_le
    rcases hf.above_or_above hg hne with habove | habove
    · exact Or.inr (hendg.trans (h.allocSize_le_of_above (hf.mem hc) habove))
    · exact Or.inl (hendf.trans (h.allocSize_le_of_above (hg.mem hc) habove))
  inside := by
    intro c hc f hf spec hspec
    exact (h.madeOf (hf.mem hc) hspec).end_le.trans (h.allocSize_le hc hf)
  aligned := fun c hc spec hspec => (h.madeOf hc hspec).align_dvd_offset
  strictest := by
    intro c hc
    obtain ⟨i, hi⟩ := List.mem_iff_getElem?.mp hc
    exact h.isGreatest_align i c hi
  rounded := fun c hc => h.align_dvd_allocSize hc

theorem made_of_registerAll {s : ClassStore F} {specs : List (ClassSpec F)}
    (h : ({} : ClassStore F).registerAll specs = (s, .ok ())) : s.Made specs := by
  obtain ⟨r, hboot, rfl⟩ := exists_stored_of_registerAll h
  exact ⟨Registry.wellPlaced_of_bootstrap hboot, madeOf_of_registerAll h⟩

end ClassStore

/-- **Blocks of different parcels never overlap,** after any calls to load classes, of which any may
have failed, with blocks of any sizes and alignments.  The block of a class, that of its nearest
ancestor of another parcel, that of this one's, and so on, lie apart from each other and within an
instance of the class; each starts at a multiple of its alignment; and an instance has the strictest
alignment on the lineage and a size that is a multiple of it. -/
theorem separate_blocks_after (calls : List (List (ClassSpec F))) :
    (ClassStore.after calls).SeparateBlocks (({} : ClassStore F).accepted calls) :=
  (ClassStore.made_of_registerAll (ClassStore.registerAll_accepted calls {})).separateBlocks

/-- A lineage that leaves a parcel and comes back to it, with blocks that no scalars would need. -/
def returningCalls : List (List (ClassSpec String)) :=
  [[{ name := "Root", parcel := "Base", ivarsSize := 5, ivarsAlign := 3 }],
    [{ name := "Lost", parcel := "Base", parent := some "Missing" }],
    [{ name := "Leaf", parcel := "Plant", parent := some "Root", ivarsSize := 1, ivarsAlign := 0 },
      { name := "Tree", parcel := "Plant", parent := some "Leaf", ivarsSize := 4, ivarsAlign := 4 }],
    [{ name := "Oak", parcel := "Base", parent := some "Tree", ivarsSize := 2, ivarsAlign := 2 }]]

/-- The blocks of an oak are those of `Root`, of `Tree` and of `Oak` itself. -/
example : (ClassStore.after returningCalls).classes.map
      (fun c => (c.name, c.ivarsOffset, c.allocSize, c.align)) =
    [("Root", 0, 6, 3), ("Leaf", 6, 9, 3), ("Tree", 8, 12, 4), ("Oak", 12, 16, 4)] := by
  decide +kernel

end ClassTables
