import ClassTables.Output.ParcelFiles
import ClassTables.Proofs.BootRules
import Mathlib.Data.List.Basic
import Mathlib.Logic.Function.Basic
/-!
# Bootstrap functions as a program

The source of a parcel gives its bootstrap functions as lines of text.  Here the lines are read
(`readAction?`, `readTest?`) and the functions of all parcels are run as one program: a parcel has
one number for its state, calls find a function by its name, and what the program asks of the
object system and of the user is recorded as events.

Main statements: what calls of `bootstrap_inheritance` and `bootstrap_parcel` do to the memory, as
one equation for each (`callTo_bootInheritance`, `callTo_bootParcel`).
-/

namespace ClassTables

/-! ## Reading lines -/

/-- What stands between two texts, if a text starts and ends with them. -/
def between? (start stop text : String) : Option String :=
  ((text.toList.dropPrefix? start.toList).bind (·.dropSuffix? stop.toList)).map String.ofList

/-- The number that decimal digits give. -/
def readNat? (text : String) : Option Nat :=
  if text.toList ≠ [] ∧ text.toList.all (·.isDigit) then
    some (Nat.ofDigitChars 10 text.toList 0)
  else none

/-- What a line of a bootstrap function does. -/
inductive Action where
  | call (function : String)
  | setState (state : Nat)
  /-- Loads so many of the classes of the parcel. -/
  | load (count : Nat)
  | print
deriving DecidableEq, Repr

def readAction? (text : String) : Option Action :=
  ((between? "" "();" text).map .call).or <|
    (((between? "bootstrap_state = " ";" text).bind readNat?).map .setState).or <|
    (((between? "cfish_Class_bootstrap(class_specs, " ");" text).bind readNat?).map .load).or <|
    (if text = "cfish_Class_bootstrap(NULL, 0);" then some (.load 0) else none).or <|
    (between? "fprintf(stderr, " ");" text).map fun _ => .print

/-- A test of the state of a parcel. -/
def readTest? (text : String) : Option (Nat → Bool) :=
  (((between? "bootstrap_state == " "" text).bind readNat?).map fun n s => s == n).or <|
    ((between? "bootstrap_state >= " "" text).bind readNat?).map fun n s => decide (n ≤ s)

theorem between?_append (start stop text : String) :
    between? start stop (start ++ text ++ stop) = some text := by
  have hprefix : (start ++ text ++ stop).toList.dropPrefix? start.toList =
      some (text ++ stop).toList := by
    rw [List.dropPrefix?_eq_some_iff]
    exact ⟨start.toList, by simp [String.toList_append], beq_self_eq_true _⟩
  have hsuffix : (text ++ stop).toList.dropSuffix? stop.toList = some text.toList := by
    rw [List.dropSuffix?_eq_some_iff]
    exact ⟨stop.toList, String.toList_append, beq_self_eq_true _⟩
  rw [between?, hprefix, Option.bind_some, hsuffix, Option.map_some, String.ofList_toList]

theorem between?_eq_some {start stop text inner : String}
    (h : between? start stop text = some inner) : text = start ++ inner ++ stop := by
  rw [between?, Option.map_eq_some_iff] at h
  obtain ⟨l, hl, rfl⟩ := h
  rw [Option.bind_eq_some_iff] at hl
  obtain ⟨rest, hrest, hl⟩ := hl
  rw [List.dropPrefix?_eq_some_iff] at hrest
  rw [List.dropSuffix?_eq_some_iff] at hl
  obtain ⟨front, htext, hfront⟩ := hrest
  obtain ⟨back, rfl, hback⟩ := hl
  rw [eq_of_beq hfront, eq_of_beq hback] at htext
  apply String.toList_injective
  rw [htext, String.toList_append, String.toList_append, String.toList_ofList, List.append_assoc]

/-- A text is not between two others if it starts differently. -/
theorem between?_eq_none_of_start {start stop front rest : String}
    (h : ¬ start.toList <+: front.toList) (h' : ¬ front.toList <+: start.toList) :
    between? start stop (front ++ rest) = none := by
  cases hb : between? start stop (front ++ rest) with
  | none => rfl
  | some inner =>
      have htext := congrArg String.toList (between?_eq_some hb)
      simp only [String.toList_append, List.append_assoc] at htext
      have hstart : start.toList <+: front.toList ++ rest.toList := htext ▸ List.prefix_append _ _
      rcases List.prefix_or_prefix_of_prefix hstart (List.prefix_append _ _) with hp | hp
      · exact absurd hp h
      · exact absurd hp h'

theorem toList_toString (n : Nat) : (toString n).toList = Nat.toDigits 10 n := by
  rw [Nat.toString_eq_repr, Nat.repr_eq_ofList_toDigits, String.toList_ofList]

theorem isDigit_of_mem_toDigits {n : Nat} {c : Char} (hc : c ∈ Nat.toDigits 10 n) :
    c.isDigit = true :=
  Nat.isDigit_of_mem_toDigits (by decide) (by decide) hc

theorem readNat?_toString (n : Nat) : readNat? (toString n) = some n := by
  have hall : (Nat.toDigits 10 n).all (·.isDigit) = true :=
    List.all_eq_true.mpr fun _ => isDigit_of_mem_toDigits
  rw [readNat?, toList_toString, if_pos ⟨Nat.toDigits_ne_nil, hall⟩, Nat.ofDigitChars_ten_toDigits]

theorem between?_toString (start stop : String) (n : Nat) :
    (between? start stop (start ++ toString n ++ stop)).bind readNat? = some n := by
  rw [between?_append, Option.bind_some, readNat?_toString]

/-- A line with a number is no call: in front of what follows the number stands a digit. -/
theorem between?_call_eq_none (start : String) {stop front : String} {c : Char}
    (hcall : "();".toList = front.toList ++ c :: stop.toList) (hc : c.isDigit = false) (n : Nat) :
    between? "" "();" (start ++ toString n ++ stop) = none := by
  cases hb : between? "" "();" (start ++ toString n ++ stop) with
  | none => rfl
  | some inner =>
      have htext := congrArg String.toList (between?_eq_some hb)
      rw [String.empty_append, String.toList_append, String.toList_append, String.toList_append,
        toList_toString, hcall] at htext
      rcases List.eq_nil_or_concat (Nat.toDigits 10 n) with hnil | ⟨digits, last, hdigits⟩
      · exact absurd hnil Nat.toDigits_ne_nil
      · have hlast : last.isDigit = true := by
          apply isDigit_of_mem_toDigits (n := n)
          rw [hdigits, List.concat_eq_append]
          exact List.mem_append_right _ List.mem_cons_self
        rw [hdigits, List.concat_eq_append, List.append_cons front.toList, ← List.append_assoc,
          ← List.append_assoc] at htext
        obtain ⟨htext, -⟩ := List.append_inj' htext rfl
        rw [← List.append_assoc] at htext
        obtain ⟨-, heq⟩ := List.append_inj' htext rfl
        cases heq
        rw [hc] at hlast
        cases hlast

theorem readAction?_call (f : String) : readAction? (f ++ "();") = some (.call f) := by
  have h := between?_append "" "();" f
  rw [String.empty_append] at h
  rw [readAction?, h, Option.map_some, Option.some_or]

theorem readAction?_setState (n : Nat) :
    readAction? ("bootstrap_state = " ++ toString n ++ ";") = some (.setState n) := by
  have hparens : "();".toList = "(".toList ++ ')' :: ";".toList := by decide
  have hcall := between?_call_eq_none "bootstrap_state = " hparens (by decide) n
  rw [readAction?, hcall, between?_toString]
  rfl

theorem readAction?_load (n : Nat) : readAction? ("cfish_Class_bootstrap(" ++
    BootStep.classTable n ++ ", " ++ toString n ++ ");") = some (.load n) := by
  rw [BootStep.classTable]
  by_cases hn : n = 0
  · subst hn
    decide +kernel
  · rw [if_neg hn]
    have hstart : "cfish_Class_bootstrap(" ++ "class_specs" ++ ", " =
      "cfish_Class_bootstrap(class_specs, " := by decide
    have hparens : "();".toList = "".toList ++ '(' :: ");".toList := by decide
    have hcall := between?_call_eq_none "cfish_Class_bootstrap(class_specs, " hparens (by decide) n
    have hset : between? "bootstrap_state = " ";"
        ("cfish_Class_bootstrap(class_specs, " ++ (toString n ++ ");")) = none :=
      between?_eq_none_of_start (by decide) (by decide)
    rw [← String.append_assoc] at hset
    rw [hstart, readAction?, hcall, hset, between?_toString]
    rfl

theorem readAction?_print : readAction?
    "fprintf(stderr, \"Cycle in class inheritance between parcels detected.\\n\");" =
      some .print := by
  decide +kernel

theorem readTest?_returnFrom (n : Nat) : readTest? ("bootstrap_state >= " ++ toString n) =
    some fun s => decide (n ≤ s) := by
  have heq : between? "bootstrap_state == " "" ("bootstrap_state >= " ++ toString n) = none :=
    between?_eq_none_of_start (by decide) (by decide)
  have hge := between?_toString "bootstrap_state >= " "" n
  rw [String.append_empty] at hge
  rw [readTest?, heq, hge]
  rfl

theorem readTest?_abortOnCycle : readTest? "bootstrap_state == 1" = some fun s => s == 1 := by
  have h := between?_toString "bootstrap_state == " "" 1
  have htext : "bootstrap_state == " ++ toString 1 ++ "" = "bootstrap_state == 1" := by decide
  rw [htext] at h
  rw [readTest?, h]
  rfl

/-! ## Running -/

/-- The states of all parcels, and what has happened so far. -/
structure BootMemory where
  state : String → Nat := fun _ => 0
  events : List BootEvent := []

/-- How a statement ends. -/
inductive Flow where
  | next
  | returned
  /-- The program has ended. -/
  | aborted
  /-- The statement has no meaning here, or calls go too deep. -/
  | stuck
deriving DecidableEq, Repr

/-- A piece of program: what it does to the memory, and how it ends. -/
abbrev BootExec := BootMemory → BootMemory × Flow

namespace BootMemory

def setState (m : BootMemory) (parcel : String) (n : Nat) : BootMemory :=
  { m with state := Function.update m.state parcel n }

def record (m : BootMemory) (e : BootEvent) : BootMemory := { m with events := m.events ++ [e] }

end BootMemory

section Exec

variable (call : String → BootExec) (owner : String)

/-- Runs an action in a function of the parcel `owner`. -/
def Action.exec : Action → BootExec
  | .call f, m => if f = "abort" then (m, .aborted) else call f m
  | .setState n, m => (m.setState owner n, .next)
  | .load n, m => (m.record (.load owner n), .next)
  | .print, m => (m, .next)

mutual

def Stmt.exec : Stmt → BootExec
  | .line text, m =>
    match readAction? text with
    | some a => a.exec call owner m
    | none => (m, .stuck)
  | .cond test body, m =>
    match readTest? test with
    | some t => if t (m.state owner) then execAll body m else (m, .next)
    | none => (m, .stuck)
  | .ret none, m => (m, .returned)
  | .ret (some _), m => (m, .stuck)

/-- Runs statements in order, until one of them does not go on to the next. -/
def execAll : List Stmt → BootExec
  | [], m => (m, .next)
  | s :: ss, m =>
    match Stmt.exec s m with
    | (m, .next) => execAll ss m
    | out => out

end

end Exec

/-- A function of the program.  One without a body is written by the user. -/
structure BootFn where
  parcel : String
  name : String
  body : Option (List Stmt)

/-- What a call leads to when a body has been run. -/
def endCall : BootMemory × Flow → BootMemory × Flow
  | (m, .returned) => (m, .next)
  | out => out

/-- Calls a function, to a depth. -/
def callTo (prog : List BootFn) : Nat → String → BootExec
  | 0, _, m => (m, .stuck)
  | depth + 1, f, m =>
    match prog.find? (·.name == f) with
    | none => (m, .stuck)
    | some fn =>
      match fn.body with
      | none => (m.record (.init fn.parcel), .next)
      | some body => endCall (execAll (callTo prog depth) fn.parcel body m)

namespace Hierarchy

/-- The functions that the source of a parcel defines, and the initializer that it declares. -/
def bootFns (h : Hierarchy) (p : Parcel) : List BootFn :=
  ⟨p.name, p.initName, none⟩ :: (h.bootDefinitions p).filterMap fun
    | .fnDef f body => some ⟨p.name, f.name, some body⟩
    | _ => none

def bootProgram (h : Hierarchy) : List BootFn := h.parcels.flatMap h.bootFns

end Hierarchy

/-! ## Steps -/

section Steps

variable {call : String → BootExec} {owner : String} {m : BootMemory}

theorem exec_line {text : String} {a : Action} (h : readAction? text = some a) :
    (Stmt.line text).exec call owner m = a.exec call owner m := by
  rw [Stmt.exec, h]

theorem exec_abortOnCycle (call : String → BootExec) (owner : String) (m : BootMemory) :
    BootStep.abortOnCycle.toStmt.exec call owner m =
      if m.state owner = 1 then (m, .aborted) else (m, .next) := by
  rw [BootStep.toStmt, Stmt.exec, readTest?_abortOnCycle]
  by_cases h : m.state owner = 1
  · have habort : readAction? "abort();" = some (.call "abort") := readAction?_call "abort"
    simp only [h, beq_self_eq_true, if_true]
    rw [execAll, exec_line readAction?_print]
    show execAll call owner [.line "abort();"] m = _
    rw [execAll, exec_line habort]
    rfl
  · simp [h]

theorem exec_returnFrom (call : String → BootExec) (owner : String) (m : BootMemory) (n : Nat) :
    (BootStep.returnFrom n).toStmt.exec call owner m =
      if n ≤ m.state owner then (m, .returned) else (m, .next) := by
  rw [BootStep.toStmt, Stmt.exec, readTest?_returnFrom]
  by_cases h : n ≤ m.state owner
  · simp only [h, decide_true, if_true]
    rw [execAll, Stmt.exec]
  · simp [h]

theorem exec_setState (n : Nat) : (BootStep.setState n).toStmt.exec call owner m =
    (m.setState owner n, .next) :=
  exec_line (readAction?_setState n)

theorem exec_loadClasses (n : Nat) : (BootStep.loadClasses n).toStmt.exec call owner m =
    (m.record (.load owner n), .next) :=
  exec_line (readAction?_load n)

theorem exec_call {f : String} (hf : f ≠ "abort") :
    (Stmt.line (f ++ "();")).exec call owner m = call f m := by
  rw [exec_line (readAction?_call f), Action.exec, if_neg hf]

theorem execAll_cons_next {s : Stmt} {ss : List Stmt} {m' : BootMemory}
    (h : s.exec call owner m = (m', .next)) :
    execAll call owner (s :: ss) m = execAll call owner ss m' := by
  rw [execAll, h]

theorem execAll_cons_of_ne {s : Stmt} {ss : List Stmt} {m' : BootMemory} {flow : Flow}
    (h : s.exec call owner m = (m', flow)) (hne : flow ≠ .next) :
    execAll call owner (s :: ss) m = (m', flow) := by
  rw [execAll, h]
  cases flow with
  | next => exact absurd rfl hne
  | returned => rfl
  | aborted => rfl
  | stuck => rfl

theorem execAll_append {ss ss' : List Stmt} : ∀ {m : BootMemory},
    execAll call owner (ss ++ ss') m = match execAll call owner ss m with
      | (m', .next) => execAll call owner ss' m'
      | out => out := by
  induction ss with
  | nil => exact fun {m} => rfl
  | cons s ss ih =>
      intro m
      rw [List.cons_append, execAll, execAll]
      rcases s.exec call owner m with ⟨m', flow⟩
      cases flow with
      | next => exact ih
      | returned => rfl
      | aborted => rfl
      | stuck => rfl

/-- Calls functions in order, until one of them does not come back. -/
def callAll (call : String → BootExec) : List String → BootExec
  | [], m => (m, .next)
  | f :: fs, m =>
    match call f m with
    | (m, .next) => callAll call fs m
    | out => out

theorem callAll_cons_next {f : String} {fs : List String} {m' : BootMemory}
    (h : call f m = (m', .next)) : callAll call (f :: fs) m = callAll call fs m' := by
  rw [callAll, h]

theorem callAll_cons_aborted {f : String} {fs : List String} {m' : BootMemory}
    (h : call f m = (m', .aborted)) : callAll call (f :: fs) m = (m', .aborted) := by
  rw [callAll, h]

theorem callAll_singleton {f : String} : callAll call [f] m = call f m := by
  rw [callAll]
  rcases call f m with ⟨m', flow⟩
  cases flow with
  | next => rfl
  | returned => rfl
  | aborted => rfl
  | stuck => rfl

theorem callAll_append {fs' : List String} : ∀ {fs : List String} {m : BootMemory},
    callAll call (fs ++ fs') m = match callAll call fs m with
      | (m', .next) => callAll call fs' m'
      | out => out
  | [], _ => rfl
  | f :: fs, m => by
      rw [List.cons_append, callAll, callAll]
      rcases call f m with ⟨m', flow⟩
      cases flow with
      | next => exact callAll_append
      | returned => rfl
      | aborted => rfl
      | stuck => rfl

/-- The line that calls a function. -/
def callLine (f : String) : Stmt := .line (f ++ "();")

theorem execAll_calls : ∀ {fs : List String}, (∀ f ∈ fs, f ≠ "abort") → ∀ m : BootMemory,
    execAll call owner (fs.map callLine) m = callAll call fs m
  | [], _, _ => rfl
  | f :: fs, hf, m => by
      rw [List.forall_mem_cons] at hf
      rw [List.map_cons, execAll, callLine, exec_call hf.1, callAll]
      rcases call f m with ⟨m', flow⟩
      cases flow with
      | next => exact execAll_calls hf.2 m'
      | returned => rfl
      | aborted => rfl
      | stuck => rfl

theorem execAll_inheritance {fs : List String} (hf : ∀ f ∈ fs, f ≠ "abort") (count : Nat) :
    execAll call owner ([BootStep.abortOnCycle, .returnFrom 2, .setState 1].map BootStep.toStmt ++
      fs.map callLine ++ [BootStep.loadClasses count, .setState 2].map BootStep.toStmt) m =
        if m.state owner = 1 then (m, .aborted)
        else if 2 ≤ m.state owner then (m, .returned)
        else match callAll call fs (m.setState owner 1) with
          | (m', .next) => ((m'.record (.load owner count)).setState owner 2, .next)
          | out => out := by
  simp only [List.map_cons, List.map_nil, List.cons_append, List.nil_append]
  by_cases h₁ : m.state owner = 1
  · have habort := exec_abortOnCycle call owner m
    rw [if_pos h₁] at habort ⊢
    exact execAll_cons_of_ne habort (by decide)
  · have hpass := exec_abortOnCycle call owner m
    have hreturn := exec_returnFrom call owner m 2
    rw [if_neg h₁] at hpass ⊢
    rw [execAll_cons_next hpass]
    by_cases h₂ : 2 ≤ m.state owner
    · rw [if_pos h₂] at hreturn ⊢
      exact execAll_cons_of_ne hreturn (by decide)
    · rw [if_neg h₂] at hreturn ⊢
      rw [execAll_cons_next hreturn, execAll_cons_next (exec_setState 1), execAll_append,
        execAll_calls hf]
      rcases callAll call fs (m.setState owner 1) with ⟨m', flow⟩
      cases flow with
      | next =>
          dsimp only
          rw [execAll_cons_next (exec_loadClasses count), execAll_cons_next (exec_setState 2),
            execAll]
      | returned => rfl
      | aborted => rfl
      | stuck => rfl

theorem execAll_parcel {f g : String} {fs : List String} (hf : f ≠ "abort") (hg : g ≠ "abort")
    (hfs : ∀ f ∈ fs, f ≠ "abort") :
    execAll call owner ((BootStep.returnFrom 3).toStmt :: callLine f ::
      (BootStep.setState 3).toStmt :: (fs.map callLine ++ [callLine g])) m =
        if 3 ≤ m.state owner then (m, .returned)
        else match call f m with
          | (m₁, .next) => callAll call (fs ++ [g]) (m₁.setState owner 3)
          | out => out := by
  have hreturn := exec_returnFrom call owner m 3
  by_cases h₃ : 3 ≤ m.state owner
  · rw [if_pos h₃] at hreturn ⊢
    exact execAll_cons_of_ne hreturn (by decide)
  · rw [if_neg h₃] at hreturn ⊢
    rw [execAll_cons_next hreturn, execAll, callLine, exec_call hf]
    rcases call f m with ⟨m₁, flow⟩
    cases flow with
    | next =>
        have hcalls : fs.map callLine ++ [callLine g] = (fs ++ [g]).map callLine := by
          rw [List.map_append, List.map_singleton]
        dsimp only
        rw [execAll_cons_next (exec_setState 3), hcalls]
        apply execAll_calls
        intro f' hf'
        rcases List.mem_append.mp hf' with hf' | hf'
        · exact hfs f' hf'
        · exact List.mem_singleton.mp hf' ▸ hg
    | returned => rfl
    | aborted => rfl
    | stuck => rfl

end Steps

/-! ## Names of functions -/

/-- What follows the prefix in the name of a bootstrap function. -/
def bootKinds : List String := ["init_parcel", "bootstrap_inheritance", "bootstrap_parcel"]

theorem bootKind_injective {k k' : String} (hk : k ∈ bootKinds) (hk' : k' ∈ bootKinds)
    {front front' : String} (h : front ++ k = front' ++ k') : front = front' ∧ k = k' := by
  have hkinds : ∀ k ∈ bootKinds, ∀ k' ∈ bootKinds, k.toList <:+ k'.toList → k = k' := by decide
  have hlist := congrArg String.toList h
  rw [String.toList_append, String.toList_append] at hlist
  have hsuffix : k.toList <:+ front'.toList ++ k'.toList := hlist ▸ List.suffix_append _ _
  have heq : k = k' := by
    rcases List.suffix_or_suffix_of_suffix hsuffix (List.suffix_append _ _) with hs | hs
    · exact hkinds k hk k' hk' hs
    · exact (hkinds k' hk' k hk hs).symm
  subst heq
  exact ⟨String.toList_injective (List.append_cancel_right hlist), rfl⟩

theorem append_bootKind_ne_abort {k : String} (hk : k ∈ bootKinds) (front : String) :
    front ++ k ≠ "abort" := by
  have hkinds : ∀ k ∈ bootKinds, ¬ k.toList <:+ "abort".toList := by decide
  intro h
  apply hkinds k hk
  rw [← h, String.toList_append]
  exact List.suffix_append _ _

namespace Hierarchy

variable {h : Hierarchy} {p : Parcel}

theorem bootFns_eq (h : Hierarchy) (p : Parcel) : h.bootFns p =
    [⟨p.name, p.initName, none⟩,
     ⟨p.name, p.bootInheritanceName, some ((h.inheritanceSteps p).map BootStep.toStmt)⟩,
     ⟨p.name, p.bootParcelName, some ((h.parcelSteps p).map BootStep.toStmt)⟩] := rfl

/-- **Under distinct prefixes the functions of all parcels have distinct names.** -/
theorem bootProgram_names_nodup (hpre : (h.parcels.map (·.lowerPrefix)).Nodup) :
    (h.bootProgram.map (·.name)).Nodup := by
  have hnames : h.bootProgram.map (·.name) =
      h.parcels.flatMap fun p => bootKinds.map (p.lowerPrefix ++ ·) := by
    rw [bootProgram, List.map_flatMap]
    rfl
  rw [hnames, List.nodup_flatMap]
  constructor
  · intro p _
    refine List.Nodup.map_on (fun k hk k' hk' heq => ?_) (by decide)
    exact (bootKind_injective hk hk' heq).2
  · refine (List.pairwise_map.mp hpre).imp fun {p q} hne f hf hf' => ?_
    obtain ⟨k, hk, rfl⟩ := List.mem_map.mp hf
    obtain ⟨k', hk', heq⟩ := List.mem_map.mp hf'
    exact hne (bootKind_injective hk' hk heq).1.symm

variable (hpre : (h.parcels.map (·.lowerPrefix)).Nodup) (hp : p ∈ h.parcels)

include hpre hp

theorem find?_bootProgram {fn : BootFn} (hfn : fn ∈ h.bootFns p) :
    h.bootProgram.find? (·.name == fn.name) = some fn := by
  rw [find?_key_eq_some_iff (bootProgram_names_nodup hpre)]
  exact ⟨List.mem_flatMap.mpr ⟨p, hp, hfn⟩, rfl⟩

/-! ## Calls -/

variable (d : Nat) (m : BootMemory)

theorem callTo_init : callTo h.bootProgram (d + 1) p.initName m =
    (m.record (.init p.name), .next) := by
  have hfn : ⟨p.name, p.initName, none⟩ ∈ h.bootFns p := by
    rw [bootFns_eq]
    exact List.mem_cons_self
  rw [callTo, find?_bootProgram hpre hp hfn]

/-- **What a call of `bootstrap_inheritance` does.** -/
theorem callTo_bootInheritance : callTo h.bootProgram (d + 1) p.bootInheritanceName m =
    if m.state p.name = 1 then (m, .aborted)
    else if 2 ≤ m.state p.name then (m, .next)
    else match callAll (callTo h.bootProgram d) ((h.inheritedParcels p).map (·.bootInheritanceName))
        (m.setState p.name 1) with
      | (m', .next) =>
        ((m'.record (.load p.name (h.dynamicClassesOf p).length)).setState p.name 2, .next)
      | out => endCall out := by
  have hfn : ⟨p.name, p.bootInheritanceName, some ((h.inheritanceSteps p).map BootStep.toStmt)⟩ ∈
      h.bootFns p := by
    rw [bootFns_eq]
    simp
  have hcalls : ((h.inheritedParcels p).map fun q => BootStep.callInheritance q.lowerPrefix).map
      BootStep.toStmt = ((h.inheritedParcels p).map (·.bootInheritanceName)).map callLine := by
    rw [List.map_map, List.map_map]
    refine List.map_congr_left fun q _ => ?_
    rw [Function.comp_apply, Function.comp_apply, callLine, Parcel.bootInheritanceName,
      String.append_assoc]
    rfl
  have hne : ∀ f ∈ (h.inheritedParcels p).map (·.bootInheritanceName), f ≠ "abort" := by
    rw [List.forall_mem_map]
    exact fun q _ => append_bootKind_ne_abort (by decide) q.lowerPrefix
  rw [callTo, find?_bootProgram hpre hp hfn]
  dsimp only
  rw [inheritanceSteps, List.map_append, List.map_append, hcalls, execAll_inheritance hne]
  by_cases h₁ : m.state p.name = 1
  · rw [if_pos h₁, if_pos h₁]
    rfl
  · rw [if_neg h₁, if_neg h₁]
    by_cases h₂ : 2 ≤ m.state p.name
    · rw [if_pos h₂, if_pos h₂]
      rfl
    · rw [if_neg h₂, if_neg h₂]
      rcases callAll (callTo h.bootProgram d) _ (m.setState p.name 1) with ⟨m', flow⟩
      cases flow with
      | next => rfl
      | returned => rfl
      | aborted => rfl
      | stuck => rfl

section States

variable {d m}

theorem callTo_bootInheritance_waiting (h₁ : m.state p.name = 1) :
    callTo h.bootProgram (d + 1) p.bootInheritanceName m = (m, .aborted) := by
  rw [callTo_bootInheritance hpre hp, if_pos h₁]

theorem callTo_bootInheritance_loaded (h₂ : 2 ≤ m.state p.name) :
    callTo h.bootProgram (d + 1) p.bootInheritanceName m = (m, .next) := by
  rw [callTo_bootInheritance hpre hp, if_neg (by omega), if_pos h₂]

theorem callTo_bootInheritance_notStarted (h₀ : m.state p.name = 0) :
    callTo h.bootProgram (d + 1) p.bootInheritanceName m =
      match callAll (callTo h.bootProgram d) ((h.inheritedParcels p).map (·.bootInheritanceName))
          (m.setState p.name 1) with
        | (m', .next) =>
          ((m'.record (.load p.name (h.dynamicClassesOf p).length)).setState p.name 2, .next)
        | out => endCall out := by
  rw [callTo_bootInheritance hpre hp, if_neg (by omega), if_neg (by omega)]

end States

/-- **What a call of `bootstrap_parcel` does.** -/
theorem callTo_bootParcel : callTo h.bootProgram (d + 1) p.bootParcelName m =
    if 3 ≤ m.state p.name then (m, .next)
    else match callTo h.bootProgram d p.bootInheritanceName m with
      | (m₁, .next) => endCall (callAll (callTo h.bootProgram d)
          ((h.prereqsOf p).map (·.bootParcelName) ++ [p.initName]) (m₁.setState p.name 3))
      | out => endCall out := by
  have hfn : ⟨p.name, p.bootParcelName, some ((h.parcelSteps p).map BootStep.toStmt)⟩ ∈
      h.bootFns p := by
    rw [bootFns_eq]
    simp
  have hline : ∀ (front kind : String), Stmt.line (front ++ (kind ++ "();")) =
      callLine (front ++ kind) := by
    intro front kind
    rw [callLine, String.append_assoc]
  have hbody : (h.parcelSteps p).map BootStep.toStmt = (BootStep.returnFrom 3).toStmt ::
      callLine p.bootInheritanceName :: (BootStep.setState 3).toStmt ::
        (((h.prereqsOf p).map (·.bootParcelName)).map callLine ++ [callLine p.initName]) := by
    have hprereqs : ((h.prereqsOf p).map fun q => BootStep.callParcel q.lowerPrefix).map
        BootStep.toStmt = ((h.prereqsOf p).map (·.bootParcelName)).map callLine := by
      rw [List.map_map, List.map_map]
      exact List.map_congr_left fun q _ => hline q.lowerPrefix "bootstrap_parcel"
    rw [parcelSteps, List.map_append, List.map_append, hprereqs, Parcel.bootInheritanceName,
      Parcel.initName, ← hline, ← hline]
    rfl
  have hinherit : p.bootInheritanceName ≠ "abort" := append_bootKind_ne_abort (by decide) _
  have hinit : p.initName ≠ "abort" := append_bootKind_ne_abort (by decide) _
  have hne : ∀ f ∈ (h.prereqsOf p).map (·.bootParcelName), f ≠ "abort" := by
    rw [List.forall_mem_map]
    exact fun q _ => append_bootKind_ne_abort (by decide) q.lowerPrefix
  rw [callTo, find?_bootProgram hpre hp hfn]
  dsimp only
  rw [hbody, execAll_parcel hinherit hinit hne]
  by_cases h₃ : 3 ≤ m.state p.name
  · rw [if_pos h₃, if_pos h₃]
    rfl
  · rw [if_neg h₃, if_neg h₃]
    rcases callTo h.bootProgram d p.bootInheritanceName m with ⟨m₁, flow⟩
    cases flow with
    | next => rfl
    | returned => rfl
    | aborted => rfl
    | stuck => rfl

theorem callTo_bootParcel_not_done {d : Nat} {m : BootMemory} (h₃ : ¬ 3 ≤ m.state p.name) :
    callTo h.bootProgram (d + 1) p.bootParcelName m =
      match callTo h.bootProgram d p.bootInheritanceName m with
        | (m₁, .next) => endCall (callAll (callTo h.bootProgram d)
            ((h.prereqsOf p).map (·.bootParcelName) ++ [p.initName]) (m₁.setState p.name 3))
        | out => endCall out := by
  rw [callTo_bootParcel hpre hp, if_neg h₃]

end Hierarchy

end ClassTables
