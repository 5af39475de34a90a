/-
  BuildingControl.Proofs.Measure.Blame

  Which number a measure fails for.  Some faults are about a number that is not
  finite; `Fault.Blames` says that such a number is one of those foreseen.  Objects
  blame no number at all, nor does a model that they are added to: what is left are
  the boundaries of programs, the rows of tables and the checks of arguments.
-/
import BuildingControl.Proofs.Erl.Fault
import BuildingControl.Proofs.Erl.TableText
import BuildingControl.Proofs.Measure.Script
import BuildingControl.Proofs.Measure.Spelling

namespace BuildingControl.Erl

open Number

variable {P : NonFinite → Prop}

/-- The number that a fault is about, if it is about one. -/
def Fault.nonFinite? : Fault → Option NonFinite
  | .nonFinite n => some n
  | _ => none

/-- A fault is about such a number if it is about a number. -/
def Fault.Blames (P : NonFinite → Prop) (fault : Fault) : Prop :=
  ∀ n, fault.nonFinite? = some n → P n

theorem Fault.blames_of_eq_none {fault : Fault} (h : fault.nonFinite? = none) : fault.Blames P := by
  intro n about
  rw [h] at about
  cases about

/-- How an object is written down is about no number. -/
theorem Fault.blames_of_isSpelling {fault : Fault} (spelling : fault.isSpelling = true) :
    fault.Blames P := by
  apply blames_of_eq_none
  cases fault with
  | nonFinite n => cases spelling
  | _ => rfl

theorem Fault.blames_of_isTextual {fault : Fault} (textual : fault.isTextual = true) :
    fault.Blames P :=
  blames_of_isSpelling (isSpelling_of_isTextual textual)

theorem blames_name (text : String) : OnFault (Fault.Blames P) (Name.ofText? text) :=
  (textual_name text).imp fun _ => Fault.blames_of_isTextual

/-! ## Tables -/

/-- The faults of a table are about the boundaries of its rows. -/
theorem TableText.blames_of_mem_faults {t : TableText} {fault : Fault} (h : fault ∈ t.faults)
    (boundaries : ∀ r ∈ t.rules, r.boundary.isFinite = false → P ⟨"rule boundary", r.boundary⟩) :
    fault.Blames P := by
  intro n about
  cases fault with
  | nonFinite number =>
    cases about
    -- of the checks of a table only those of its boundaries are about numbers
    have name (text : String) : Fault.nonFinite n ∉ nameFaults text := by
      simp [nameFaults]
    have expression (text : String) : Fault.nonFinite n ∉ expressionFaults text := by
      simp [expressionFaults]
    have word (text : String) : Fault.nonFinite n ∉ wordFaults text := by
      simp [wordFaults]
    have row : ∃ r ∈ t.rules, Fault.nonFinite n ∈ boundaryFaults r.boundary := by
      cases otherwise : t.otherwise with
      | none => simp [TableText.faults, otherwise] at h
      | some default =>
        simpa [TableText.faults, TableText.checkFaults, otherwise, name, expression, word] using h
    obtain ⟨r, hr, mem⟩ := row
    unfold boundaryFaults at mem
    split at mem
    · cases mem
    · next special =>
      cases List.mem_singleton.1 mem
      exact boundaries r hr (Bool.eq_false_iff.2 special)
  | _ => cases about

theorem TableText.blames_build {t : TableText}
    (boundaries : ∀ r ∈ t.rules, r.boundary.isFinite = false → P ⟨"rule boundary", r.boundary⟩) :
    OnFault (Fault.Blames P) t.build := by
  intro fault failed
  exact blames_of_mem_faults (List.mem_of_mem_head? ((t.firstOf_build fault).1 failed)) boundaries

/-- Names come before boundaries, so a table whose names are in order fails for the first of its
    boundaries that is not finite. -/
theorem TableText.build_eq_nonFinite {t : TableText} {default : ActionText} {x : Float}
    (otherwise : t.otherwise = some default)
    (subject : nameFaults t.subject = []) (targets : ∀ r ∈ t.rules, nameFaults r.target = [])
    (fallback : nameFaults default.target = [])
    (first : t.rules.flatMap (fun r => boundaryFaults r.boundary) =
      [.nonFinite ⟨"rule boundary", x⟩]) :
    t.build = .error (.nonFinite ⟨"rule boundary", x⟩) := by
  have some : t.rules ≠ [] := by
    rintro none
    rw [none] at first
    cases first
  have named : t.rules.flatMap (fun r => nameFaults r.target) = [] :=
    List.flatMap_eq_nil_iff.2 targets
  rw [t.firstOf_build]
  simp [TableText.faults, TableText.checkFaults, otherwise, subject, named, fallback, first, some]

end BuildingControl.Erl

namespace BuildingControl.Model

open Erl Number

/-- A model refuses an object for no number. -/
theorem blames_declare {P : NonFinite → Prop} (m : Model) (d : Declaration) :
    OnFault (Fault.Blames P) (m.declare d) := by
  have field (field : HostField) (value : String) :
      OnFault (Fault.Blames P) (requireField field value) := by
    unfold requireField
    split
    · exact onFault_ok _
    · exact onFault_error.2 (Fault.blames_of_eq_none rfl)
  have refuse (condition : Bool) {fault : Fault} (other : fault.nonFinite? = none) :
      OnFault (Fault.Blames P) (refuseIf condition fault) := by
    unfold refuseIf
    split
    · exact onFault_error.2 (Fault.blames_of_eq_none other)
    · exact onFault_ok _
  have free (name : Name) : OnFault (Fault.Blames P) (m.requireFree name) := refuse _ rfl
  have admitted : OnFault (Fault.Blames P) (m.admit? d) := by
    cases d with
    | sensor s => exact (field _ _).bind fun _ _ => (field _ _).bind fun _ _ => free _
    | actuator a =>
      exact (field _ _).bind fun _ _ => (field _ _).bind fun _ _ =>
        (field _ _).bind fun _ _ => free _
    | global name => exact free name
    | trend t => exact (refuse _ rfl).bind fun _ _ => free _
    | internal v => exact (field _ _).bind fun _ _ => (field _ _).bind fun _ _ => free _
    | construction c => exact (field _ _).bind fun _ _ => free _
    | output o => exact (field _ _).bind fun _ _ => (field _ _).bind fun _ _ => refuse _ rfl
    | program p => exact free _
    | subroutine p => exact free _
    | manager c => exact (field _ _).bind fun _ _ => refuse _ rfl
    | request r => exact (field _ _).bind fun _ _ => field _ _
  exact admitted.map _

end BuildingControl.Model

namespace BuildingControl.Measure

open Erl Model Number

variable {P : NonFinite → Prop}

/-- The number that a fault is about, if it is about one. -/
def Fault.nonFinite? : Fault → Option NonFinite
  | .program fault => fault.nonFinite?
  | .number n => some n
  | _ => none

/-- A fault is about such a number if it is about a number. -/
def Fault.Blames (P : NonFinite → Prop) (fault : Fault) : Prop :=
  ∀ n, fault.nonFinite? = some n → P n

theorem Fault.blames_of_eq_none {fault : Fault} (h : fault.nonFinite? = none) : fault.Blames P := by
  intro n about
  rw [h] at about
  cases about

/-! ## Scripts -/

namespace Script

/-- How an object is written down is about no number. -/
theorem Spelled.blames {s : Script} (h : s.Spelled) : OnFaults (Fault.Blames P) s := by
  refine fun step mem => (h step mem).imp fun fault spelling => ?_
  cases fault with
  | program fault => exact Erl.Fault.blames_of_isSpelling spelling
  | _ => cases spelling

theorem blames_one {d : Except Erl.Fault Declaration} (h : OnFault (Erl.Fault.Blames P) d) :
    OnFaults (Fault.Blames P) (one d) :=
  onFaults_singleton.2 (onFault_mapError_iff.2 h)

theorem blames_require {α : Type} {check : Except Fault α} (h : OnFault (Fault.Blames P) check) :
    OnFaults (Fault.Blames P) (require check) := by
  cases check with
  | error fault => exact onFaults_singleton.2 (onFault_error.2 (h fault rfl))
  | ok x => exact onFaults_nil

theorem blames_forEach {α : Type} {a : Numbering} {units : List α} {part : α → Nat → Script}
    (each : ∀ x n, OnFaults (Fault.Blames P) (part x n)) :
    OnFaults (Fault.Blames P) (forEach a units part) := by
  induction units generalizing a with
  | nil => exact onFaults_nil
  | cons x units ih =>
    rw [forEach, Numbering.advance, Numbering.skip]
    by_cases room : a.next + 1 ≤ Numbering.limit
    · rw [dif_pos room]
      exact onFaults_append.2 ⟨each x a.next, ih⟩
    · rw [dif_neg room]
      exact onFaults_singleton.2 (onFault_error.2 (Fault.blames_of_eq_none rfl))

/-- A program blames the numbers that its lines blame. -/
theorem blames_program (name : String) {body : Draft}
    (lines : OnFaults (Erl.Fault.Blames P) body) : OnFaults (Fault.Blames P) (program name body) :=
  blames_one ((blames_name name).bind fun _ _ =>
    (Draft.onFault_build (fun _ => Erl.Fault.blames_of_isTextual) lines).bind fun _ _ =>
      onFault_ok _)

theorem blames_subroutine (name : String) {body : Except Erl.Fault Code}
    (h : OnFault (Erl.Fault.Blames P) body) : OnFaults (Fault.Blames P) (subroutine name body) :=
  blames_one ((blames_name name).bind fun _ _ => h.bind fun _ _ => onFault_ok _)

/-- Running a script blames the numbers that the script itself blames. -/
theorem blames_run {s : Script} {m : Model} (h : OnFaults (Fault.Blames P) s) :
    OnFault (Fault.Blames P) (s.run m) := by
  induction s generalizing m with
  | nil => exact onFault_ok m
  | cons step rest ih =>
    obtain ⟨first, later⟩ := List.forall_mem_cons.1 h
    cases step with
    | error fault => exact onFault_error.2 (first fault rfl)
    | ok d =>
      rw [run]
      split
      · exact ih later
      · next fault refused => exact onFault_error.2 (m.blames_declare d fault refused)

/-! ### The first fault -/

/-- A fault behind steps that run through. -/
theorem run_append_error {s rest : Script} {m n : Model} {fault : Fault}
    (runs : s.run m = .ok n) : (s ++ .error fault :: rest).run m = .error fault := by
  induction s generalizing m with
  | nil => rfl
  | cons step s ih =>
    cases step with
    | error other => cases runs
    | ok d =>
      rw [run] at runs
      rw [List.cons_append, run]
      split at runs
      · next next declared => exact ih runs
      · cases runs

/-- The front of a script that runs through runs through. -/
theorem exists_run_of_append {s rest : Script} {m n : Model} (runs : (s ++ rest).run m = .ok n) :
    ∃ k, s.run m = .ok k := by
  induction s generalizing m with
  | nil => exact ⟨m, rfl⟩
  | cons step s ih =>
    cases step with
    | error fault => cases runs
    | ok d =>
      rw [List.cons_append, run] at runs
      rw [run]
      split at runs
      · exact ih runs
      · cases runs

end Script

/-! ## Measures -/

/-- Building a measure blames the numbers that its script blames. -/
theorem blames_build {x : Measure} {a : Numbering}
    (h : OnFaults (Fault.Blames P) (x.script a)) : OnFault (Fault.Blames P) (x.build a) := by
  intro fault failed
  unfold build at failed
  split at failed
  · next other stopped =>
    cases failed
    exact Script.blames_run h fault stopped
  · split at failed
    · next exhausted =>
      cases failed
      rw [Numbering.advanceBy_eq_skip, Numbering.skip] at exhausted
      split at exhausted
      · cases exhausted
      · cases exhausted
        exact Fault.blames_of_eq_none rfl
    · cases failed

/-- Where a measure builds, one that only has another body fails for that body, if it does. -/
theorem build_eq_error_of_program {x y : Measure} {a : Numbering} {front back : Script}
    {name : String} {body other : Draft} {fault : Erl.Fault} {b : Model × Numbering}
    (built : y.build a = .ok b)
    (hy : y.script a = front ++ (Script.program name other ++ back))
    (hx : x.script a = front ++ (Script.program name body ++ back))
    (fails : ∀ code, other.build = .ok code → body.build = .error fault) :
    x.build a = .error (.program fault) := by
  have runs := (build_eq_ok_iff.1 built).1
  rw [hy] at runs
  obtain ⟨ds, all, -⟩ := Script.run_eq_ok_iff.1 runs
  obtain ⟨_, _, -, later, -⟩ := allOk_append_iff.1 all
  obtain ⟨_, _, here, -, -⟩ := allOk_append_iff.1 later
  obtain ⟨label, code, named, hcode, -⟩ := Script.allOk_program_iff.1 here
  have faulty : Script.program name body = [.error (.program fault)] := by
    rw [Script.program, Name.ofText?_eq_ok_iff.2 named, fails code hcode]
    rfl
  obtain ⟨m, ahead⟩ := Script.exists_run_of_append runs
  have stopped : (x.script a).run .empty = .error (.program fault) := by
    rw [hx, faulty]
    exact Script.run_append_error ahead
  rw [build, stopped]

end BuildingControl.Measure
