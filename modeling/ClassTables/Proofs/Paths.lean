import ClassTables.Files.Path
/-!
# Places of paths

Two spellings name the same place when their components agree.  Whatever a path starts with, the text
after its last slash decides its last component (`exists_components_eq_append`), so paths that end
differently name different places (`components_ne_of_endings`).
-/

namespace ClassTables.Path

variable {p q t u : String} {n m : String}

/-! ## Segments -/

theorem segments_slash (cs : List Char) : segments ('/' :: cs) = [] :: segments cs := rfl

theorem segments_ne_nil (cs : List Char) : segments cs ≠ [] := Text.pieces_ne_nil _ cs

theorem segments_cons {c : Char} (hc : c ≠ '/') {cs w : List Char} {ws : List (List Char)}
    (h : segments cs = w :: ws) : segments (c :: cs) = (c :: w) :: ws := by
  have hpieces : Text.pieces (· == '/') cs = w :: ws := h
  rw [segments, Text.pieces, beq_false_of_ne hc, hpieces]
  rfl

/-- Text without slashes is one segment. -/
theorem segments_of_not_mem {cs : List Char} (h : '/' ∉ cs) : segments cs = [cs] := by
  induction cs with
  | nil => rfl
  | cons c cs ih =>
      rw [List.mem_cons, not_or] at h
      exact segments_cons (Ne.symm h.1) (ih h.2)

/-- A slash divides the segments. -/
theorem segments_append_slash (cs ds : List Char) :
    segments (cs ++ '/' :: ds) = segments cs ++ segments ds := by
  induction cs with
  | nil => rfl
  | cons c cs ih =>
      by_cases hc : c = '/'
      · subst hc
        rw [List.cons_append, segments_slash, segments_slash, ih, List.cons_append]
      · obtain ⟨w, ws, hws⟩ := List.exists_cons_of_ne_nil (segments_ne_nil cs)
        have htail : segments (cs ++ '/' :: ds) = w :: (ws ++ segments ds) := by
          rw [ih, hws, List.cons_append]
        rw [List.cons_append, segments_cons hc hws, segments_cons hc htail, List.cons_append]

/-- What ends a text without a slash ends its last segment. -/
theorem exists_segments_append (cs : List Char) {ds : List Char} (h : '/' ∉ ds) :
    ∃ front w, segments (cs ++ ds) = front ++ [w ++ ds] := by
  induction cs with
  | nil => exact ⟨[], [], segments_of_not_mem h⟩
  | cons c cs ih =>
      obtain ⟨front, w, hseg⟩ := ih
      by_cases hc : c = '/'
      · subst hc
        exact ⟨[] :: front, w, congrArg ([] :: ·) hseg⟩
      · cases front with
        | nil => exact ⟨[], c :: w, segments_cons hc hseg⟩
        | cons v vs => exact ⟨(c :: v) :: vs, w, segments_cons hc hseg⟩

/-! ## Endings -/

/-- The end of a file name: without slashes, and its last character is not a point. -/
def IsEnding (t : String) : Prop :=
  '/' ∉ t.toList ∧ ∃ c, t.toList.getLast? = some c ∧ c ≠ '.'

theorem IsEnding.append (ht : IsEnding t) (hp : '/' ∉ p.toList) : IsEnding (p ++ t) := by
  obtain ⟨hslash, c, hlast, hc⟩ := ht
  rw [IsEnding, String.toList_append, List.mem_append, not_or, List.getLast?_append, hlast]
  exact ⟨⟨hp, hslash⟩, c, rfl, hc⟩

/-- A segment with such an end counts, and as a name. -/
theorem IsEnding.component? (ht : IsEnding t) (w : List Char) :
    component? (w ++ t.toList) = some (.name (String.ofList (w ++ t.toList))) := by
  obtain ⟨-, c, hlast, hc⟩ := ht
  have hend : (w ++ t.toList).getLast? = some c := by
    rw [List.getLast?_append, hlast, Option.some_or]
  have hne : ∀ cs : List Char, cs.getLast? ≠ some c → w ++ t.toList ≠ cs := by
    rintro cs hcs rfl
    exact hcs hend
  have hidle : isIdle (w ++ t.toList) = false := by
    rw [isIdle, beq_false_of_ne (hne [] (by simp)),
      beq_false_of_ne (hne ['.'] (by simpa using Ne.symm hc))]
    rfl
  rw [Path.component?, hidle, if_neg (by decide), if_neg (hne ['.', '.'] (by simpa using Ne.symm hc))]

/-- The anchor is taken off in front of the end. -/
theorem exists_body_append (ht : IsEnding t) (cs : List Char) :
    ∃ a ds, splitAnchor (cs ++ t.toList) = (a, ds ++ t.toList) := by
  obtain ⟨hslash, c, hlast, hc⟩ := ht
  generalize hbody : cs ++ t.toList = body
  unfold splitAnchor
  split
  · next rest =>
      cases cs with
      | nil => simp_all
      | cons d ds =>
          obtain ⟨-, rfl⟩ := List.cons.inj hbody
          exact ⟨.root, ds, rfl⟩
  · have hend := congrArg List.getLast? hbody
    rw [List.getLast?_append, hlast] at hend
    simp at hend
    exact absurd hend hc
  · next rest =>
      cases cs with
      | nil => simp_all
      | cons d ds =>
          obtain ⟨-, hrest⟩ := List.cons.inj hbody
          exact ⟨.here, ds, congrArg (Anchor.here, ·) hrest.symm⟩
  · exact ⟨.bare, cs, by rw [hbody]⟩

/-- **The last component of a path ends as the path ends.** -/
theorem exists_components_append (ht : IsEnding t) (p : String) :
    ∃ cs w, components (p ++ t) = cs ++ [.name (String.ofList (w ++ t.toList))] := by
  obtain ⟨a, ds, hsplit⟩ := exists_body_append ht p.toList
  obtain ⟨front, w, hseg⟩ := exists_segments_append ds ht.1
  refine ⟨a.components ++ front.filterMap Path.component?, w, ?_⟩
  rw [components, String.toList_append, hsplit]
  dsimp only
  rw [hseg, List.filterMap_append, List.filterMap_cons_some (ht.component? w), List.filterMap_nil,
    List.append_assoc]

/-- **Paths with different ends are different.** -/
theorem components_ne_of_endings (ht : IsEnding t) (hu : IsEnding u)
    (htu : ¬ t.toList <:+ u.toList) (hut : ¬ u.toList <:+ t.toList) :
    components (p ++ t) ≠ components (q ++ u) := by
  obtain ⟨cs, v, hp⟩ := exists_components_append ht p
  obtain ⟨ds, w, hq⟩ := exists_components_append hu q
  intro heq
  rw [hp, hq] at heq
  have hlast := congrArg List.getLast? heq
  rw [List.getLast?_concat, List.getLast?_concat, Option.some.injEq, Component.name.injEq,
    String.ofList_inj] at hlast
  have hsuffix : t.toList <:+ w ++ u.toList := hlast ▸ List.suffix_append v t.toList
  rcases List.suffix_or_suffix_of_suffix hsuffix (List.suffix_append w u.toList) with h | h
  · exact htu h
  · exact hut h

/-! ## Joining -/

/-- Joining puts something in front. -/
theorem exists_join_eq_append (base path : String) : ∃ front, join base path = front ++ path := by
  unfold join
  split
  · exact ⟨"", (String.empty_append).symm⟩
  · split
    · exact ⟨base, rfl⟩
    · exact ⟨base ++ "/", rfl⟩

/-- The components that a path adds when it is read from a directory. -/
def steps (path : String) : List Component := (segments path.toList).filterMap component?

theorem splitAnchor_bare {cs : List Char} (hroot : cs.head? ≠ some '/') (hpoint : cs ≠ ['.'])
    (hhere : cs.take 2 ≠ ['.', '/']) : splitAnchor cs = (.bare, cs) := by
  unfold splitAnchor
  split
  · simp at hroot
  · exact absurd rfl hpoint
  · simp at hhere
  · rfl

theorem splitAnchor_append_slash {cs : List Char} (h : cs ≠ []) (ds : List Char) :
    splitAnchor (cs ++ '/' :: ds) = ((splitAnchor cs).1, (splitAnchor cs).2 ++ '/' :: ds) := by
  obtain ⟨c, cs, rfl⟩ := List.exists_cons_of_ne_nil h
  by_cases hroot : c = '/'
  · subst hroot
    rfl
  by_cases hpoint : c = '.'
  · subst hpoint
    cases cs with
    | nil => rfl
    | cons d cs =>
        by_cases hd : d = '/'
        · subst hd
          rfl
        · rw [List.cons_append, List.cons_append, splitAnchor_bare, splitAnchor_bare]
          all_goals simp [hd]
  · rw [List.cons_append, splitAnchor_bare, splitAnchor_bare]
    all_goals simp [hroot, hpoint]

theorem components_append_slash (hp : p ≠ "") : components (p ++ "/" ++ q) = components p ++ steps q := by
  have hlist : (p ++ "/" ++ q).toList = p.toList ++ '/' :: q.toList := by
    simp
  have hne : p.toList ≠ [] := by simpa using hp
  rw [components, components, hlist, splitAnchor_append_slash hne]
  dsimp only
  rw [segments_append_slash, List.filterMap_append, List.append_assoc, steps]

/-- **A path that is not absolute adds its steps to the directory that it is read from.** -/
theorem components_join {base path : String} (hbase : base ≠ "") (hpath : isAbsolute path = false) :
    components (join base path) = components base ++ steps path := by
  have hempty : base.isEmpty = false := by simpa using hbase
  rw [join, hpath, hempty, Bool.false_or]
  cases hslash : endsWithSlash base with
  | false => exact components_append_slash hbase
  | true =>
      -- the slash that divides is the last of the directory
      obtain ⟨front, hfront⟩ := List.getLast?_eq_some_iff.mp (eq_of_beq hslash)
      obtain rfl : base = String.ofList front ++ "/" := by
        rw [← String.toList_inj, hfront]
        simp
      by_cases hnil : String.ofList front = ""
      · rw [hnil, String.empty_append]
        show components ("/" ++ path) = components "/" ++ steps path
        have hlist : ("/" ++ path).toList = '/' :: path.toList := by simp
        rw [components, hlist]
        rfl
      · have hsteps : steps "" = [] := rfl
        have hbare := components_append_slash (q := "") hnil
        rw [String.append_empty, hsteps, List.append_nil] at hbare
        rw [hbare]
        exact components_append_slash hnil

/-- A plain name is one component, wherever it is read from. -/
theorem IsEnding.steps (hn : IsEnding n) : steps n = [.name n] := by
  rw [Path.steps, segments_of_not_mem hn.1]
  have hname := hn.component? []
  rw [List.nil_append, String.ofList_toList] at hname
  rw [List.filterMap_cons_some hname, List.filterMap_nil]

theorem IsEnding.components (hn : IsEnding n) : components n = [.name n] := by
  obtain ⟨hslash, c, hlast, hc⟩ := hn
  have hbare : splitAnchor n.toList = (.bare, n.toList) := by
    apply splitAnchor_bare
    · exact fun h => hslash (List.mem_of_mem_head? h)
    · intro h
      rw [h] at hlast
      simp at hlast
      exact hc hlast.symm
    · intro h
      have hmem : '/' ∈ n.toList.take 2 := by simp [h]
      exact hslash (List.mem_of_mem_take hmem)
  rw [Path.components, hbare]
  exact IsEnding.steps ⟨hslash, c, hlast, hc⟩

/-- **Plain names in one directory are different places.** -/
theorem components_join_eq_iff (hn : IsEnding n) (hm : IsEnding m) (base : String) :
    components (join base n) = components (join base m) ↔ n = m := by
  have habs : ∀ {k}, IsEnding k → isAbsolute k = false := by
    intro k hk
    rw [isAbsolute, beq_eq_false_iff_ne]
    exact fun h => hk.1 (List.mem_of_mem_head? h)
  by_cases hbase : base = ""
  · subst hbase
    have hempty : ∀ {k}, IsEnding k → join "" k = k := by
      intro k hk
      rw [join, habs hk]
      exact String.empty_append
    rw [hempty hn, hempty hm, hn.components, hm.components]
    simp
  · rw [components_join hbase (habs hn), components_join hbase (habs hm), hn.steps, hm.steps]
    simp

end ClassTables.Path
