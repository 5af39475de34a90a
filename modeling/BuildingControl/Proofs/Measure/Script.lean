/-
  BuildingControl.Proofs.Measure.Script

  What a script without faults comes to: a list of objects, all of which come
  into the model together (`run_eq_ok_iff`), so that a measure builds into the
  objects of its script.  For each kind of object that scripts add there is one
  lemma that says which object it is.
-/
import BuildingControl.Measure.Batch
import BuildingControl.Proofs.Erl.RuleTable
import BuildingControl.Proofs.Model.Coherent

namespace BuildingControl.Measure

open Erl Model

namespace Script

/-! ## Runs -/

/-- A script runs through exactly when it has no fault and its objects come in together. -/
theorem run_eq_ok_iff {script : Script} {m n : Model} :
    script.run m = .ok n ↔ ∃ ds, AllOk script ds ∧ m.declareAll ds = (n, .ok ()) := by
  induction script generalizing m with
  | nil =>
    simp only [run, allOk_nil_iff, exists_eq_left, declareAll]
    simp
  | cons step rest ih =>
    cases step with
    | error fault =>
      constructor
      · intro h
        cases h
      · rintro ⟨ds, h, -⟩
        cases ds <;> cases h
    | ok d =>
      have parts (ds : List Declaration) :
          AllOk (.ok d :: rest) ds ↔ ∃ es, AllOk rest es ∧ d :: es = ds := by
        cases ds with
        | nil => simp [AllOk]
        | cons e es => simp [AllOk, eq_comm, and_comm]
      simp only [run, parts]
      cases hd : m.declare d with
      | error fault =>
        simp only [reduceCtorEq, false_iff]
        rintro ⟨_, ⟨es, -, rfl⟩, h⟩
        rw [declareAll, hd] at h
        cases h
      | ok next =>
        simp only [ih]
        constructor
        · rintro ⟨es, hes, h⟩
          refine ⟨d :: es, ⟨es, hes, rfl⟩, ?_⟩
          rw [declareAll, hd]
          exact h
        · rintro ⟨_, ⟨es, hes, rfl⟩, h⟩
          rw [declareAll, hd] at h
          exact ⟨es, hes, h⟩

/-- Running a script keeps the invariant of models. -/
theorem coherent_run {script : Script} {m n : Model} (h : Coherent m)
    (hr : script.run m = .ok n) : Coherent n := by
  induction script generalizing m with
  | nil =>
    cases hr
    exact h
  | cons step rest ih =>
    cases step with
    | error fault => cases hr
    | ok d =>
      rw [run] at hr
      split at hr
      · next next hd => exact ih (h.declare hd) hr
      · cases hr

/-! ## Objects by the spelling of their names -/

theorem allOk_one_iff {d : Except Erl.Fault Declaration} {ds : List Declaration} :
    AllOk (one d) ds ↔ ∃ x, d = .ok x ∧ [x] = ds := by
  simp [one, mapError_eq_ok_iff]

theorem allOk_global_iff {name : String} {ds : List Declaration} :
    AllOk (global name) ds ↔ ∃ n : Name, n.text = name ∧ [.global n] = ds := by
  rw [global, allOk_one_iff]
  simp [bind_eq_ok_iff, Name.ofText?_eq_ok_iff, pure, Except.pure]

theorem allOk_internal_iff {name key dataType : String} {ds : List Declaration} :
    AllOk (internal name key dataType) ds ↔
      ∃ n : Name, n.text = name ∧ [.internal ⟨n, key, dataType⟩] = ds := by
  rw [internal, allOk_one_iff]
  simp [bind_eq_ok_iff, Name.ofText?_eq_ok_iff, pure, Except.pure]

theorem allOk_actuator_iff {name component control : String} {kind : ComponentKind}
    {ds : List Declaration} :
    AllOk (actuator name component kind control) ds ↔ ∃ (n : Name) (a : Actuator), n.text = name ∧
      Actuator.ofComponent n ⟨component, kind⟩ control = .ok a ∧ [.actuator a] = ds := by
  rw [actuator, allOk_one_iff]
  simp [bind_eq_ok_iff, Name.ofText?_eq_ok_iff, pure, Except.pure, and_assoc]

theorem allOk_program_iff {name : String} {body : Draft} {ds : List Declaration} :
    AllOk (program name body) ds ↔ ∃ (n : Name) (c : Code), n.text = name ∧ body.build = .ok c ∧
      [.program ⟨n, c⟩] = ds := by
  rw [program, allOk_one_iff]
  simp [bind_eq_ok_iff, Name.ofText?_eq_ok_iff, pure, Except.pure]

theorem allOk_subroutine_iff {name : String} {body : Except Erl.Fault Code}
    {ds : List Declaration} :
    AllOk (subroutine name body) ds ↔ ∃ (n : Name) (c : Code), n.text = name ∧ body = .ok c ∧
      [.subroutine ⟨n, c⟩] = ds := by
  rw [subroutine, allOk_one_iff]
  simp [bind_eq_ok_iff, Name.ofText?_eq_ok_iff, pure, Except.pure]

theorem allOk_manager_iff {name program : String} {point : CallingPoint}
    {ds : List Declaration} :
    AllOk (manager name point program) ds ↔
      ∃ n : Name, n.text = program ∧ [.manager ⟨name, point, [n]⟩] = ds := by
  rw [manager, allOk_one_iff]
  simp [bind_eq_ok_iff, Name.ofText?_eq_ok_iff, pure, Except.pure]

theorem name_of_ofComponent {n : Name} {component : Component} {control : String} {a : Actuator}
    (h : Actuator.ofComponent n component control = .ok a) : a.name = n := by
  unfold Actuator.ofComponent at h
  dsimp only at h
  split at h
  · cases h
    rfl
  · cases h

/-- The actuator of a control that a kind of component offers. -/
theorem eq_of_ofComponent {n : Name} {component : Component} {control type spelling : String}
    {a : Actuator} (h : Actuator.ofComponent n component control = .ok a)
    (typed : component.kind.actuatorType? = some type)
    (offered : component.kind.control? control = some spelling) :
    a = ⟨n, component.name, type, spelling⟩ := by
  rw [Actuator.ofComponent, typed, offered] at h
  cases h
  rfl

end Script

/-! ## Measures -/

/-- Building runs the script of the measure and takes one number for each unit. -/
theorem build_eq_ok_iff {measure : Measure} {a b : Numbering} {o : Model} :
    measure.build a = .ok (o, b) ↔
      (measure.script a).run .empty = .ok o ∧ a.advanceBy measure.unitCount = .ok b := by
  unfold build
  cases (measure.script a).run .empty with
  | error fault => simp
  | ok objects => cases a.advanceBy measure.unitCount <;> simp

theorem coherent_of_build {measure : Measure} {a b : Numbering} {o : Model}
    (h : measure.build a = .ok (o, b)) : Coherent o :=
  Script.coherent_run coherent_empty (build_eq_ok_iff.1 h).1

/-- A measure builds from the objects of its script. -/
theorem declarations_of_build {measure : Measure} {a b : Numbering} {o : Model}
    (h : measure.build a = .ok (o, b)) :
    ∃ ds, AllOk (measure.script a) ds ∧ Model.empty.declareAll ds = (o, .ok ()) :=
  Script.run_eq_ok_iff.1 (build_eq_ok_iff.1 h).1

end BuildingControl.Measure
