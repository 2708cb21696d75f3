import ClassTables.Proofs.OutputPlaces
/-!
# Writing to any writer

A writer is handed one file after the other, each in the state that the one before it has left, and
takes the file or refuses it.  `Takes` says that it takes some files, from which state to which.

Main statement: `written_in_turn`.  The files are made and handed over in a fixed order.  If the writer
takes them all, their paths are returned; if it refuses one, its refusal is, and the writer has been
handed those before it and no others.  Nothing else goes wrong.
-/

namespace ClassTables

/-- What takes files or refuses them, with a state of its own. -/
abbrev Writer (σ : Type) := OutputFile → ExceptT BindingError (StateM σ) Unit

variable {σ : Type} {write : Writer σ} {f : OutputFile} {files rest : List OutputFile}
  {s s₁ s₂ : σ} {e : BindingError}

/-- The writer takes some files, one after the other, on the way from one state to another. -/
inductive Takes (write : Writer σ) : σ → List OutputFile → σ → Prop
  | nil (s : σ) : Takes write s [] s
  | cons {f : OutputFile} {files : List OutputFile} {s s₁ s₂ : σ} :
      (write f).run.run s = (.ok (), s₁) → Takes write s₁ files s₂ → Takes write s (f :: files) s₂

/-! ## Handing over a list of files -/

theorem run_forM_of_taken (h : (write f).run.run s = (.ok (), s₁)) :
    ((f :: files).forM write).run.run s = (files.forM write).run.run s₁ := by
  rw [List.forM, ExceptT.run_bind, StateT.run_bind, h]
  rfl

theorem run_forM_of_refused (h : (write f).run.run s = (.error e, s₁)) :
    ((f :: files).forM write).run.run s = (.error e, s₁) := by
  rw [List.forM, ExceptT.run_bind, StateT.run_bind, h]
  rfl

/-- All files are written where the writer takes them all. -/
theorem run_forM_eq_ok_iff :
    (files.forM write).run.run s = (.ok (), s₂) ↔ Takes write s files s₂ := by
  induction files generalizing s with
  | nil =>
      constructor
      · intro h
        cases h
        exact .nil _
      · rintro ⟨⟩
        rfl
  | cons f files ih =>
      rcases hrun : (write f).run.run s with ⟨_ | _, s₁⟩
      · rw [run_forM_of_refused hrun]
        constructor
        · intro h
          cases h
        · rintro (_ | ⟨hf, -⟩)
          rw [hrun] at hf
          cases hf
      · rw [run_forM_of_taken hrun, ih]
        constructor
        · exact .cons hrun
        · rintro (_ | ⟨hf, hfiles⟩)
          rw [hrun] at hf
          cases hf
          exact hfiles

/-- A refusal is that of one file, which comes after files that have been taken. -/
theorem run_forM_eq_error_iff :
    (files.forM write).run.run s = (.error e, s₂) ↔ ∃ done f rest s₁, files = done ++ f :: rest ∧
      Takes write s done s₁ ∧ (write f).run.run s₁ = (.error e, s₂) := by
  induction files generalizing s with
  | nil =>
      constructor
      · intro h
        cases h
      · rintro ⟨done, f, rest, s₁, h, -⟩
        simp at h
  | cons f files ih =>
      constructor
      · intro h
        rcases hrun : (write f).run.run s with ⟨_ | _, s₁⟩
        · rw [run_forM_of_refused hrun] at h
          cases h
          exact ⟨[], f, files, s, rfl, .nil s, hrun⟩
        · rw [run_forM_of_taken hrun] at h
          obtain ⟨done, g, rest, s₂, rfl, htaken, hg⟩ := ih.mp h
          exact ⟨f :: done, g, rest, s₂, rfl, .cons hrun htaken, hg⟩
      · rintro ⟨done, g, rest, s₁, heq, htaken, hg⟩
        cases htaken with
        | nil =>
            obtain ⟨rfl, rfl⟩ := List.cons.inj heq
            exact run_forM_of_refused hg
        | cons hf htaken =>
            obtain ⟨rfl, rfl⟩ := List.cons.inj heq
            rw [run_forM_of_taken hf]
            exact ih.mpr ⟨_, g, rest, s₁, rfl, htaken, hg⟩

/-! ## Handing over all files -/

namespace Bindings

variable {b : Bindings} {dirs : OutputDirs} {paths : List String}

/-- The paths are returned where all files are taken. -/
theorem run_writeAll_eq_ok_iff (h : b.outputs dirs = .ok files) :
    (b.writeAll write dirs).run.run s = (.ok paths, s₂) ↔
      paths = files.map (·.path) ∧ Takes write s files s₂ := by
  rw [writeAll_eq h, ExceptT.run_bind, StateT.run_bind, ← run_forM_eq_ok_iff]
  rcases (files.forM write).run.run s with ⟨_ | _, s₁⟩
  · constructor
    · intro hrun
      cases hrun
    · rintro ⟨-, hrun⟩
      cases hrun
  · constructor
    · intro hrun
      cases hrun
      exact ⟨rfl, rfl⟩
    · rintro ⟨rfl, hrun⟩
      cases hrun
      rfl

/-- A failure is the refusal of a file. -/
theorem run_writeAll_eq_error_iff (h : b.outputs dirs = .ok files) :
    (b.writeAll write dirs).run.run s = (.error e, s₂) ↔
      ∃ done f rest s₁, files = done ++ f :: rest ∧ Takes write s done s₁ ∧
        (write f).run.run s₁ = (.error e, s₂) := by
  rw [writeAll_eq h, ExceptT.run_bind, StateT.run_bind, ← run_forM_eq_error_iff]
  rcases (files.forM write).run.run s with ⟨_ | _, s₁⟩
  · constructor
    · intro hrun
      cases hrun
      rfl
    · intro hrun
      cases hrun
      rfl
  · constructor
    · intro hrun
      cases hrun
    · intro hrun
      cases hrun

theorem exists_takes (h : ∀ f s, ∃ s', (write f).run.run s = (.ok (), s')) (s : σ)
    (files : List OutputFile) : ∃ s', Takes write s files s' := by
  induction files generalizing s with
  | nil => exact ⟨s, .nil s⟩
  | cons f files ih =>
      obtain ⟨s₁, hf⟩ := h f s
      obtain ⟨s₂, hfiles⟩ := ih s₁
      exact ⟨s₂, .cons hf hfiles⟩

/-- **Making files never fails, and the files are written in a fixed order.**  First come the headers
of the classes that are not included, each once; then the header of the platform, the header of each
parcel and its source unless the parcel is included, and the header of the callbacks.  The writer
decides the rest: where it takes them all, their paths are returned, and where it refuses one, its
refusal is, after it has taken those in front of that one. -/
theorem written_in_turn (b : Bindings) (dirs : OutputDirs) : ∃ files : List OutputFile,
    b.outputs dirs = .ok files ∧
    files.map (·.path) =
      ((b.hierarchy.classes.filter (!·.included)).map (·.header)).eraseDups.map dirs.header ++
        [dirs.header "cfish_platform.h"] ++
        b.hierarchy.parcels.flatMap (fun p => dirs.header (p.lowerPrefix ++ "parcel.h") ::
          if p.included then [] else [dirs.source (p.lowerPrefix ++ "parcel.c")]) ++
        [dirs.header "callbacks.h"] ∧
    ∀ {σ : Type} (write : Writer σ) (s : σ),
      ((∀ f s, ∃ s', (write f).run.run s = (.ok (), s')) → ∃ s', Takes write s files s' ∧
        (b.writeAll write dirs).run.run s = (.ok (files.map (·.path)), s')) ∧
      (∀ paths s', (b.writeAll write dirs).run.run s = (.ok paths, s') ↔
        paths = files.map (·.path) ∧ Takes write s files s') ∧
      ∀ e s', (b.writeAll write dirs).run.run s = (.error e, s') ↔
        ∃ done f rest s₁, files = done ++ f :: rest ∧ Takes write s done s₁ ∧
          (write f).run.run s₁ = (.error e, s') := by
  obtain ⟨files, hfiles⟩ := exists_outputs b dirs
  refine ⟨files, hfiles, map_path_outputs hfiles, fun write s => ⟨?_, ?_, ?_⟩⟩
  · intro hnever
    obtain ⟨s', htakes⟩ := exists_takes hnever s files
    exact ⟨s', htakes, (run_writeAll_eq_ok_iff hfiles).mpr ⟨rfl, htakes⟩⟩
  · intro paths s'
    exact run_writeAll_eq_ok_iff hfiles
  · intro e s'
    exact run_writeAll_eq_error_iff hfiles

end Bindings

/-! ## A writer that runs out of room -/

/-- Takes as many files as the state says. -/
def OutputFile.spend (f : OutputFile) : ExceptT BindingError (StateM Nat) Unit := do
  match ← get with
  | 0 => throw (.unwritable f.path (.other "no room"))
  | room + 1 => set room

theorem takes_spend (files : List OutputFile) (room : Nat) :
    Takes OutputFile.spend (files.length + room) files room := by
  induction files with
  | nil =>
      rw [List.length_nil, Nat.zero_add]
      exact .nil room
  | cons f files ih =>
      rw [List.length_cons, Nat.add_right_comm]
      exact .cons rfl ih

/-- All six files are kept in memory, and written where there is room for six; where there is room for
two, the third is refused. -/
theorem twoShapes_written : ∃ (b : Bindings) (paths : List String),
    (twoShapes "App/Shapes.h").build = .ok b.hierarchy ∧
    paths = ["inc/App/Shapes.h", "inc/cfish_platform.h", "inc/app_parcel.h", "src/app_parcel.c",
      "inc/lib_parcel.h", "inc/callbacks.h"] ∧
    (∃ kept, (b.writeAll OutputFile.keep ⟨"inc", "src"⟩).run.run {} = (.ok paths, kept)) ∧
    (b.writeAll OutputFile.spend ⟨"inc", "src"⟩).run.run 6 = (.ok paths, 0) ∧
    (b.writeAll OutputFile.spend ⟨"inc", "src"⟩).run.run 2 =
      (.error (.unwritable "inc/app_parcel.h" (.other "no room")), 0) := by
  let h : Hierarchy := (twoShapes "App/Shapes.h").build.toOption.getD ⟨[], [], []⟩
  let b : Bindings := { hierarchy := h }
  have hb : (twoShapes "App/Shapes.h").build = .ok b.hierarchy := by decide +kernel
  obtain ⟨files, -, hpaths, hwrites⟩ := b.written_in_turn ⟨"inc", "src"⟩
  obtain ⟨hkeeps, -, -⟩ := hwrites OutputFile.keep {}
  obtain ⟨-, htaken, -⟩ := hwrites OutputFile.spend 6
  obtain ⟨-, -, hrefused⟩ := hwrites OutputFile.spend 2
  have hexpected : files.map (·.path) = ["inc/App/Shapes.h", "inc/cfish_platform.h",
      "inc/app_parcel.h", "src/app_parcel.c", "inc/lib_parcel.h", "inc/callbacks.h"] := by
    rw [hpaths]
    decide +kernel
  have hlength : files.length = 6 := by
    rw [← List.length_map (·.path), hexpected]
    rfl
  refine ⟨b, _, hb, hexpected, ?_, ?_, ?_⟩
  · obtain ⟨kept, -, hrun⟩ := hkeeps fun f s => ⟨_, rfl⟩
    exact ⟨kept, hrun⟩
  · exact (htaken _ 0).mpr ⟨rfl, hlength ▸ takes_spend files 0⟩
  · obtain ⟨f, rest, rfl, -, hrest⟩ := List.map_eq_cons_iff.mp hexpected
    obtain ⟨g, rest, rfl, -, hrest⟩ := List.map_eq_cons_iff.mp hrest
    obtain ⟨k, rest, rfl, hk, -⟩ := List.map_eq_cons_iff.mp hrest
    refine (hrefused _ 0).mpr ⟨[f, g], k, rest, 0, rfl, takes_spend [f, g] 0, ?_⟩
    rw [← hk]
    rfl

end ClassTables
