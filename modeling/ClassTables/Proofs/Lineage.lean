import Mathlib.Data.Fintype.Card
import Mathlib.Data.List.Nodup
import Mathlib.Data.Set.Finite.Basic
import Mathlib.Logic.Relation
/-!
# Lineages

Things that name themselves and, perhaps, a parent form a graph in which every vertex has at most
one way up.  A *lineage* leads from a thing to a root, nearest first.  When names are distinct a
thing has at most one lineage (`Lineage.above_eq`), which repeats nothing and so is no longer than
the list of all things.

Main statement: every thing has a lineage exactly when no thing is its own ancestor
(`acyclic_iff_lineage`).  A search that walks down from the roots finds lineages, a specification
says that there is no cycle, and this is where the two meet.
-/

namespace ClassTables

variable {α : Type} {name : α → String} {parent : α → Option String} {ds : List α}

/-- `p` is the thing that `c` names as its parent. -/
def ParentIn (name : α → String) (parent : α → Option String) (ds : List α) (p c : α) : Prop :=
  p ∈ ds ∧ c ∈ ds ∧ parent c = some (name p)

/-- A way up to a root, nearest first. -/
inductive Lineage (name : α → String) (parent : α → Option String) (ds : List α) :
    List α → Prop
  | root {c : α} : c ∈ ds → parent c = none → Lineage name parent ds [c]
  | child {c p : α} {above : List α} : c ∈ ds → parent c = some (name p) →
      Lineage name parent ds (p :: above) → Lineage name parent ds (c :: p :: above)

/-- No thing is its own ancestor. -/
def Acyclic (name : α → String) (parent : α → Option String) (ds : List α) : Prop :=
  ∀ c, ¬ Relation.TransGen (ParentIn name parent ds) c c

/-- Every parent that is named is there. -/
def ParentsKnown (name : α → String) (parent : α → Option String) (ds : List α) : Prop :=
  ∀ c ∈ ds, ∀ n, parent c = some n → ∃ p ∈ ds, name p = n

/-! ## What is on a lineage -/

theorem Lineage.mem_of_head {c : α} {above : List α}
    (h : Lineage name parent ds (c :: above)) : c ∈ ds := by
  cases h with
  | root hc _ => exact hc
  | child hc _ _ => exact hc

theorem Lineage.mem {l : List α} (h : Lineage name parent ds l) : ∀ x ∈ l, x ∈ ds := by
  induction h with
  | root hc _ =>
      intro x hx
      rw [List.mem_singleton] at hx
      exact hx ▸ hc
  | child hc _ _ ih =>
      intro x hx
      rcases List.mem_cons.mp hx with rfl | hx
      · exact hc
      · exact ih x hx

/-- What is above a member of a lineage is its own lineage. -/
theorem Lineage.of_append {c : α} {above : List α} (below : List α)
    (h : Lineage name parent ds (below ++ c :: above)) :
    Lineage name parent ds (c :: above) := by
  induction below with
  | nil => exact h
  | cons b below ih =>
      cases hb : below ++ c :: above with
      | nil => simp at hb
      | cons p rest =>
          rw [List.cons_append, hb] at h
          cases h with
          | child _ _ h => exact ih (hb ▸ h)

theorem Lineage.parent_head {c : α} {above : List α}
    (h : Lineage name parent ds (c :: above)) : parent c = above.head?.map name := by
  cases h with
  | root _ hp => exact hp
  | child _ hp _ => exact hp

/-- More things leave a lineage as it is. -/
theorem Lineage.mono {ds' : List α} (hsub : ds ⊆ ds') {l : List α} (h : Lineage name parent ds l) :
    Lineage name parent ds' l := by
  induction h with
  | root hc hp => exact .root (hsub hc) hp
  | child hc hp _ ih => exact .child (hsub hc) hp ih

/-- A cycle of some things is a cycle of more of them. -/
theorem Acyclic.mono {ds' : List α} (hsub : ds' ⊆ ds) (h : Acyclic name parent ds) :
    Acyclic name parent ds' := by
  intro c hcc
  have hstep : ∀ p q, ParentIn name parent ds' p q → ParentIn name parent ds p q := by
    rintro p q ⟨hp, hq, hparent⟩
    exact ⟨hsub hp, hsub hq, hparent⟩
  exact h c (Relation.TransGen.mono hstep c c hcc)

/-! ## With distinct names -/

theorem eq_of_name_eq (hnd : (ds.map name).Nodup) {x y : α} (hx : x ∈ ds) (hy : y ∈ ds)
    (h : name x = name y) : x = y :=
  List.inj_on_of_nodup_map hnd hx hy h

/-- **There is one way up.** -/
theorem Lineage.above_eq (hnd : (ds.map name).Nodup) {a : List α} :
    ∀ {c : α} {b : List α}, Lineage name parent ds (c :: a) →
      Lineage name parent ds (c :: b) → a = b := by
  -- a root has no parent and a child has one, so both ways up end together
  induction a with
  | nil =>
      intro c b ha hb
      cases ha with
      | root _ hp =>
          cases hb with
          | root _ _ => rfl
          | child _ hq _ => rw [hp] at hq; cases hq
  | cons p a ih =>
      intro c b ha hb
      cases ha with
      | child _ hp ha =>
          cases hb with
          | root _ hq => rw [hp] at hq; cases hq
          | child _ hq hb =>
              rw [hp] at hq
              have hpq := eq_of_name_eq hnd ha.mem_of_head hb.mem_of_head (Option.some.inj hq)
              subst hpq
              rw [ih ha hb]

theorem Lineage.head_not_mem (hnd : (ds.map name).Nodup) {c : α} {above : List α}
    (h : Lineage name parent ds (c :: above)) : c ∉ above := by
  intro hc
  -- otherwise the part above the repetition would be a second, shorter way up
  obtain ⟨x, y, rfl⟩ := List.append_of_mem hc
  have hlong := Lineage.of_append (c :: x) h
  have hlen := congrArg List.length (h.above_eq hnd hlong)
  simp only [List.length_append, List.length_cons] at hlen
  omega

theorem Lineage.nodup (hnd : (ds.map name).Nodup) {l : List α}
    (h : Lineage name parent ds l) : l.Nodup := by
  induction h with
  | root _ _ => exact List.nodup_singleton _
  | child hc hp hl ih => exact List.nodup_cons.mpr ⟨(Lineage.child hc hp hl).head_not_mem hnd, ih⟩

theorem Lineage.nodup_names (hnd : (ds.map name).Nodup) {l : List α}
    (h : Lineage name parent ds l) : (l.map name).Nodup :=
  (h.nodup hnd).map_on fun x hx y hy => eq_of_name_eq hnd (h.mem x hx) (h.mem y hy)

theorem Lineage.length_le (hnd : (ds.map name).Nodup) {l : List α}
    (h : Lineage name parent ds l) : l.length ≤ ds.length :=
  ((h.nodup hnd).subperm h.mem).length_le

/-! ## Lineages and cycles -/

/-- Whatever is further up on the lineage is an ancestor. -/
theorem Lineage.transGen_of_mem_above {a c : α} {above : List α}
    (h : Lineage name parent ds (c :: above)) (ha : a ∈ above) :
    Relation.TransGen (ParentIn name parent ds) a c := by
  induction above generalizing c with
  | nil => cases ha
  | cons p above ih =>
      cases h with
      | child hc hp h =>
          have hstep : ParentIn name parent ds p c := ⟨h.mem_of_head, hc, hp⟩
          rcases List.mem_cons.mp ha with rfl | ha
          · exact .single hstep
          · exact (ih h ha).tail hstep

/-- Ancestors are on the lineage. -/
theorem Lineage.mem_above (hnd : (ds.map name).Nodup) {a c : α}
    (hac : Relation.TransGen (ParentIn name parent ds) a c) :
    ∀ {above : List α}, Lineage name parent ds (c :: above) → a ∈ above := by
  induction hac with
  | single hac =>
      intro above h
      cases h with
      | root _ hp => rw [hac.2.2] at hp; cases hp
      | child _ hp h =>
          rw [hac.2.2] at hp
          rw [eq_of_name_eq hnd hac.1 h.mem_of_head (Option.some.inj hp)]
          exact List.mem_cons_self
  | tail _ hbc ih =>
      intro above h
      cases h with
      | root _ hp => rw [hbc.2.2] at hp; cases hp
      | child _ hp h =>
          rw [hbc.2.2] at hp
          have heq := eq_of_name_eq hnd hbc.1 h.mem_of_head (Option.some.inj hp)
          subst heq
          exact List.mem_cons_of_mem _ (ih h)

/-- Being an ancestor is well-founded among finitely many things without a cycle. -/
theorem Acyclic.wellFounded (h : Acyclic name parent ds) :
    WellFounded fun p c : { d // d ∈ ds } =>
      Relation.TransGen (ParentIn name parent ds) p.1 c.1 :=
  have : IsTrans { d // d ∈ ds } fun p c =>
      Relation.TransGen (ParentIn name parent ds) p.1 c.1 := ⟨fun _ _ _ => .trans⟩
  have : Std.Irrefl fun p c : { d // d ∈ ds } =>
      Relation.TransGen (ParentIn name parent ds) p.1 c.1 := ⟨fun d => h d.1⟩
  have : Finite { d // d ∈ ds } := List.finite_toSet ds
  Finite.wellFounded_of_trans_of_irrefl _

/-- **Lineages exist where nothing goes round.** -/
theorem acyclic_iff_lineage (hnd : (ds.map name).Nodup)
    (hknown : ParentsKnown name parent ds) :
    Acyclic name parent ds ↔ ∀ c ∈ ds, ∃ above, Lineage name parent ds (c :: above) := by
  constructor
  · intro hacyc c hc
    refine hacyc.wellFounded.induction (C := fun d => ∃ above, Lineage name parent ds (d.1 :: above))
      ⟨c, hc⟩ ?_
    rintro ⟨d, hd⟩ ih
    cases hp : parent d with
    | none => exact ⟨[], .root hd hp⟩
    | some n =>
        obtain ⟨p, hpd, rfl⟩ := hknown d hd n hp
        obtain ⟨above, h⟩ := ih ⟨p, hpd⟩ (.single ⟨hpd, hd, hp⟩)
        exact ⟨p :: above, .child hd hp h⟩
  · intro hlin c hcc
    obtain ⟨p, _, hpc⟩ := Relation.TransGen.tail'_iff.mp hcc
    obtain ⟨above, h⟩ := hlin c hpc.2.1
    exact h.head_not_mem hnd (h.mem_above hnd hcc)

/-! ## Renaming -/

/-- Lineages of the images of things, under a map that keeps names and parents. -/
theorem Lineage.map {β : Type} {name' : β → String} {parent' : β → Option String} {f : α → β}
    (hname : ∀ x, name' (f x) = name x) (hparent : ∀ x, parent' (f x) = parent x) {l : List α}
    (h : Lineage name parent ds l) : Lineage name' parent' (ds.map f) (l.map f) := by
  induction h with
  | root hc hp => exact .root (List.mem_map_of_mem hc) ((hparent _).trans hp)
  | child hc hp _ ih =>
      refine .child (List.mem_map_of_mem hc) ?_ ih
      rw [hparent, hname, hp]

theorem Lineage.of_map {β : Type} {name' : β → String} {parent' : β → Option String} {f : α → β}
    (hname : ∀ x, name' (f x) = name x) (hparent : ∀ x, parent' (f x) = parent x) {l : List β}
    (h : Lineage name' parent' (ds.map f) l) :
    ∃ l₀, Lineage name parent ds l₀ ∧ l₀.map f = l := by
  induction h with
  | root hc hp =>
      obtain ⟨c, hcs, rfl⟩ := List.mem_map.mp hc
      exact ⟨[c], .root hcs ((hparent c).symm.trans hp), rfl⟩
  | child hc hp _ ih =>
      obtain ⟨c, hcs, rfl⟩ := List.mem_map.mp hc
      obtain ⟨l₀, hl₀, heq⟩ := ih
      cases l₀ with
      | nil => simp at heq
      | cons p above =>
          obtain ⟨rfl, rfl⟩ := List.cons.inj heq
          rw [hparent, hname] at hp
          exact ⟨c :: p :: above, .child hcs hp hl₀, rfl⟩

end ClassTables
