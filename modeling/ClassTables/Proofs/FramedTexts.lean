import ClassTables.Output.Basic
import ClassTables.Proofs.Comments
/-!
# Texts at the top and at the bottom

Every generated file may start and end with a text of the user's choice.  Whatever is chosen, it does
not reach the code: the file is the one that is made without such texts, character by character,
behind a comment and in front of a comment (`Frame.Frames`).  Newlines apart, that is: those at the end
of the code are tidied where the code ends the file, and stay where a comment follows
(`render_wrap`).

Main statement: `texts_framed`.
-/

namespace ClassTables

/-! ## Tidying the end -/

/-- `n` newlines. -/
def newlines (n : Nat) : String := String.ofList (List.replicate n '\n')

theorem newline_append_newlines (n : Nat) : "\n" ++ newlines n = newlines n ++ "\n" := by
  rw [← String.toList_inj, newlines, String.toList_append, String.toList_append, String.toList_ofList,
    String.toList_ofList]
  exact (List.replicate_succ (n := n)).symm.trans List.replicate_succ'

/-- The last character is no newline. -/
def EndsVisible (s : String) : Prop := ∃ cs c, s.toList = cs ++ [c] ∧ c ≠ '\n'

theorem EndsVisible.append {s : String} (h : EndsVisible s) (front : String) :
    EndsVisible (front ++ s) := by
  obtain ⟨cs, c, hs, hc⟩ := h
  exact ⟨front.toList ++ cs, c, by rw [String.toList_append, hs, List.append_assoc], hc⟩

theorem oneNewline_replicate_append {c : Char} {cs : List Char} (hc : c ≠ '\n') (n : Nat) :
    Text.oneNewline (List.replicate n '\n' ++ c :: cs) = '\n' :: c :: cs := by
  induction n with
  | zero => exact Text.oneNewline.eq_4 _ (by simp [hc]) (by simp [hc]) (by simp)
  | succ n ih =>
      cases n with
      | zero => exact Text.oneNewline.eq_2 _ (by simp [hc])
      | succ n => exact ih

/-- **Tidying leaves one newline** behind the last other character. -/
theorem endLine_append_newlines {s : String} (h : EndsVisible s) (n : Nat) :
    (Text.Buffer.mk (s ++ newlines n)).endLine.text = s ++ "\n" := by
  obtain ⟨cs, c, hs, hc⟩ := h
  rw [← String.toList_inj, Text.Buffer.endLine, String.toList_ofList, String.toList_append, newlines,
    String.toList_ofList, hs, List.reverse_append, List.reverse_replicate, List.reverse_append,
    List.reverse_singleton, List.singleton_append, oneNewline_replicate_append hc,
    String.toList_append, hs]
  simp

/-- A text in which there is more than newlines, and the newlines at its end. -/
theorem exists_endsVisible {s : String} (h : ∃ c ∈ s.toList, c ≠ '\n') :
    ∃ core n, EndsVisible core ∧ s = core ++ newlines n := by
  have hcut : ∀ {cs : List Char}, (∃ c ∈ cs, c ≠ '\n') →
      ∃ front c n, c ≠ '\n' ∧ cs = front ++ c :: List.replicate n '\n' := by
    intro cs
    induction cs using List.reverseRecOn with
    | nil => exact fun ⟨c, hc, _⟩ => nomatch hc
    | append_singleton cs d ih =>
        rintro ⟨c, hc, hne⟩
        by_cases hd : d = '\n'
        · subst hd
          have hmem : c ∈ cs := by simpa [hne] using hc
          obtain ⟨front, c', n, hc', rfl⟩ := ih ⟨c, hmem, hne⟩
          refine ⟨front, c', n + 1, hc', ?_⟩
          rw [List.append_assoc, List.cons_append, List.replicate_succ']
        · exact ⟨cs, d, 0, hd, rfl⟩
  obtain ⟨front, c, n, hc, hs⟩ := hcut h
  refine ⟨String.ofList (front ++ [c]), n, ⟨front, c, String.toList_ofList, hc⟩, ?_⟩
  rw [← String.toList_inj, hs, String.toList_append, newlines, String.toList_ofList,
    String.toList_ofList]
  simp

theorem IsComment.endsVisible {s : String} (h : IsComment s) : EndsVisible s := by
  obtain ⟨x, -, hs⟩ := isComment_iff.mp h
  exact ⟨'/' :: '*' :: (x ++ ['*']), '/', by simp [hs], by decide⟩

/-! ## Printing one after the other -/

namespace Fragment

theorem print_append (f g : Fragment) : print (f ++ g) = print f ++ print g := by
  rw [← String.toList_inj, String.toList_append, print, print, print, toList_printAt, toList_printAt,
    toList_printAt, lines_append, endedLines_append]

/-- What is printed ends in a newline, if anything is. -/
theorem exists_print_eq {f : Fragment} (h : ∃ c ∈ f.print.toList, c ≠ '\n') :
    ∃ core n, EndsVisible core ∧ f.print = core ++ newlines (n + 1) := by
  obtain ⟨core, n, hcore, hprint⟩ := exists_endsVisible h
  cases n with
  | succ n => exact ⟨core, n, hcore, hprint⟩
  | zero =>
      exfalso
      obtain ⟨cs, c, hcs, hc⟩ := hcore
      have hlines : endedLines (fragmentLines 0 f) = cs ++ [c] := by
        rw [← toList_printAt, ← print, hprint, String.toList_append, hcs, newlines]
        simp
      rcases List.eq_nil_or_concat (fragmentLines 0 f) with hnil | ⟨ls, l, hls⟩
      · rw [hnil] at hlines
        cases cs <;> cases hlines
      · rw [hls, List.concat_eq_append, endedLines_append, endedLines_cons] at hlines
        have hlast : endedLines ls ++ l.toList ++ ['\n'] = cs ++ [c] := by
          rw [← hlines, List.append_assoc]
          rfl
        exact hc (List.append_inj_right' hlast rfl |> List.cons.inj |>.1).symm

/-- What a line shows, the fragment shows. -/
theorem exists_mem_print {f : Fragment} {i : Item} {l : String} {c : Char} (hi : i ∈ f)
    (hl : l ∈ i.lines 0) (hc : c ∈ l.toList) : c ∈ (print f).toList := by
  obtain ⟨front, back, rfl⟩ := List.append_of_mem hi
  have hitem : c ∈ (print [i]).toList := by
    rw [print, toList_printAt, endedLines, List.mem_flatMap]
    exact ⟨l, by simpa [fragmentLines] using hl, List.mem_append_left _ hc⟩
  have hsplit : front ++ i :: back = front ++ ([i] ++ back) := rfl
  rw [hsplit, print_append, print_append, String.toList_append, String.toList_append]
  exact List.mem_append_right _ (List.mem_append_left _ hitem)

end Fragment

/-! ## Frames -/

namespace Frame

variable (f : Frame)

/-- What a file opens with: nothing, or a comment and an empty line. -/
def Opens (s : String) : Prop :=
  (f.top = "" → s = "") ∧ (f.top ≠ "" → ∃ c, IsComment c ∧ s = c ++ "\n\n")

/-- What a file closes with: nothing, or a comment behind empty lines. -/
def Closes (s : String) : Prop :=
  (f.bottom = "" → s = "") ∧
    (f.bottom ≠ "" → ∃ n c, IsComment c ∧ s = newlines (n + 1) ++ c ++ "\n")

/-- The text is the bare one between what opens and what closes a file. -/
def Frames (bare text : String) : Prop :=
  ∃ opening closing, text = opening ++ bare ++ closing ∧ f.Opens opening ∧ f.Closes closing

theorem opens_before : f.Opens f.before.print := by
  unfold Opens before
  by_cases h : f.top = ""
  · rw [if_pos (by simpa using h)]
    exact ⟨fun _ => rfl, fun hne => absurd h hne⟩
  · obtain ⟨c, hc, hprint⟩ := print_commentItem f.top
    have hpair : [commentItem f.top, .blank] = [commentItem f.top] ++ [Item.blank] := rfl
    have hblank : Fragment.print [.blank] = "\n" := by decide
    rw [if_neg (by simpa using h), hpair, Fragment.print_append, hprint, hblank, String.append_assoc]
    exact ⟨fun he => absurd he h, fun _ => ⟨c, hc, rfl⟩⟩

/-- **A file is its code in a frame.**  The newlines at the end of the code are tidied where nothing
follows. -/
theorem render_wrap {body : Fragment} (h : ∃ c ∈ body.print.toList, c ≠ '\n') :
    f.Frames body.render (f.wrap body).render := by
  obtain ⟨core, n, hcore, hbody⟩ := Fragment.exists_print_eq h
  have hbare : body.render = core ++ "\n" := by
    rw [Fragment.render, hbody, endLine_append_newlines hcore]
  have hwrap :
      (f.wrap body).print = f.before.print ++ (core ++ newlines (n + 1)) ++ f.after.print := by
    rw [wrap, Fragment.print_append, Fragment.print_append, hbody]
  rw [hbare, Fragment.render, hwrap]
  by_cases hbottom : f.bottom = ""
  · have hafter : f.after = [] := if_pos (by simpa using hbottom)
    refine ⟨f.before.print, "", ?_, f.opens_before, fun _ => rfl, fun hne => absurd hbottom hne⟩
    have hnil : Fragment.print [] = "" := rfl
    rw [hafter, hnil, String.append_empty, ← String.append_assoc,
      endLine_append_newlines (hcore.append _), String.append_empty, String.append_assoc]
  · obtain ⟨c, hc, hprint⟩ := print_commentItem f.bottom
    have hpair : f.after = [Item.blank] ++ [commentItem f.bottom] := if_neg (by simpa using hbottom)
    have hblank : Fragment.print [.blank] = "\n" := by decide
    have hone : newlines 1 = "\n" := by decide
    refine ⟨f.before.print, newlines (n + 1) ++ c ++ "\n", ?_, f.opens_before,
      fun he => absurd he hbottom, fun _ => ⟨n, c, hc, rfl⟩⟩
    -- the end is tidied behind the comment
    have htext : f.before.print ++ (core ++ newlines (n + 1)) ++ f.after.print =
        (f.before.print ++ (core ++ (newlines (n + 1) ++ "\n")) ++ c) ++ newlines 1 := by
      rw [hpair, Fragment.print_append, hblank, hprint, hone]
      simp only [String.append_assoc]
    rw [htext, endLine_append_newlines (hc.endsVisible.append _), ← newline_append_newlines]
    simp only [String.append_assoc]

/-- Without texts there is no frame. -/
theorem wrap_empty (body : Fragment) : ({} : Frame).wrap body = body := List.append_nil body

end Frame

/-! ## The generated files -/

theorem visible_guardItem (guard : String) (body : Fragment) :
    ∃ c ∈ (Fragment.print [guardItem guard body]).toList, c ≠ '\n' := by
  refine ⟨'#', Fragment.exists_mem_print List.mem_cons_self List.mem_cons_self ?_, by decide⟩
  rw [lineAt_zero]
  show '#' ∈ ("#ifndef" ++ " " ++ guard).toList
  rw [String.toList_append]
  exact List.mem_append_left _ (by decide)

theorem visible_parcelSourceBody (h : Hierarchy) (p : Parcel) :
    ∃ c ∈ (Fragment.print (h.parcelSourceBody p)).toList, c ≠ '\n' := by
  have hflag : Item.flag "C_CFISH_CLASS" ∈ h.parcelSourceBody p := by
    simp [Hierarchy.parcelSourceBody, Hierarchy.privacyFlags]
  exact ⟨'#', Fragment.exists_mem_print hflag List.mem_cons_self (by decide), by decide⟩

namespace Bindings

/-- The same bindings without texts of the user's choice. -/
def bare (b : Bindings) : Bindings := { b with frame := {} }

variable (b : Bindings)

/-- A header is the bare one in a frame. -/
theorem frames_guarded (f : Frame) (guard : String) (body : Fragment) :
    f.Frames (({} : Frame).guarded guard body).render (f.guarded guard body).render := by
  have hbare : ({} : Frame).guarded guard body = [guardItem guard body] := Frame.wrap_empty _
  rw [hbare]
  exact f.render_wrap (visible_guardItem guard body)

theorem frames_parcelSource (p : Parcel) :
    b.frame.Frames (b.bare.parcelSource p).render (b.parcelSource p).render := by
  have hbare : b.bare.parcelSource p = b.hierarchy.parcelSourceBody p := Frame.wrap_empty _
  rw [hbare]
  exact b.frame.render_wrap (visible_parcelSourceBody b.hierarchy p)

/-- **Texts at the top and at the bottom do not change the code.**  Every file is the one that is made
without them, behind a comment where there is a text for the top, and in front of a comment where
there is one for the bottom; and where no header can be made, that is so without them too. -/
theorem texts_framed :
    (∀ path, match b.bare.classHeader path, b.classHeader path with
      | .ok f₀, .ok f => b.frame.Frames f₀.render f.render
      | .error e₀, .error e => e₀ = e
      | _, _ => False) ∧
    (∀ p, b.frame.Frames (b.bare.parcelHeader p).render (b.parcelHeader p).render) ∧
    (∀ p, b.frame.Frames (b.bare.parcelSource p).render (b.parcelSource p).render) ∧
    b.frame.Frames b.bare.callbacksHeader.render b.callbacksHeader.render ∧
    b.frame.Frames b.bare.platformHeader.render b.platformHeader.render := by
  refine ⟨?_, fun p => ?_, b.frames_parcelSource, ?_, ?_⟩
  · intro path
    unfold classHeader bare
    dsimp only
    cases b.hierarchy.classesIn path with
    | nil => rfl
    | cons first rest => exact frames_guarded b.frame _ _
  · exact frames_guarded b.frame _ _
  · exact frames_guarded b.frame _ _
  · exact frames_guarded b.frame _ _

end Bindings

end ClassTables
