/-
  BuildingControl.Proofs.Measure.Session

  What holds of a model after any session.  One operation, whether it succeeds or
  not, leads from a reachable model to a reachable one (`reachable_run`), so the
  reachable models are those that sessions on the empty model come to
  (`reachable_iff_session`).  In each of them the lists and the names in use are in
  step (`inStep_session`).

  Two such models that are in order need not be in order once they are merged:
  `check_merge` says exactly when they are.
-/
import BuildingControl.Proofs.Measure.Operation
import BuildingControl.Proofs.Model.Capture

namespace BuildingControl

open Erl Model

namespace Operation

/-- The steps that add an object come to what declaring it does. -/
theorem attempt_add (m : Model) (d : Declaration) :
    Steps.attempt (Model.add d) m = match m.declare d with
      | .ok n => (n, .ok ())
      | .error fault => (m, .error fault) := by
  rw [settles_add d m, declare]
  dsimp only
  cases m.admit? d <;> rfl

/-- The steps that add an object leave a reachable model, also when they fail. -/
theorem reachable_add {m : Model} (before : m.Reachable) (d : Declaration) :
    (Steps.attempt (Model.add d) m).1.Reachable := by
  rw [attempt_add]
  cases declared : m.declare d with
  | ok n => exact before.declare declared
  | error fault => exact before

/-- An operation leads from a reachable model to a reachable one, also when it fails. -/
theorem reachable_run {m : Model} (before : m.Reachable) (op : Operation) :
    (op.run m).1.Reachable := by
  cases op with
  | add d => exact reachable_add before d
  | report r => exact before.withReporting r
  | merge other built => exact before.merge built
  | apply measure a => exact before.apply measure a
  | applyBatch measures a => exact before.applyBatch measures a

theorem reachable_session {m : Model} (before : m.Reachable) (ops : List Operation) :
    (session m ops).1.Reachable := by
  induction ops generalizing m with
  | nil => exact before
  | cons op later ih => exact ih (reachable_run before op)

/-- One more operation works on the model that the session came to. -/
theorem session_concat (m : Model) (ops : List Operation) (op : Operation) :
    (session m (ops ++ [op])).1 = (op.run (session m ops).1).1 := by
  induction ops generalizing m with
  | nil => rfl
  | cons first later ih => exact ih (first.run m).1

/-- The reachable models are those that sessions come to. -/
theorem reachable_iff_session {m : Model} :
    m.Reachable ↔ ∃ ops, (session .empty ops).1 = m := by
  constructor
  · -- each way to reach a model is one more operation
    have further {n : Model} (op : Operation) (h : ∃ ops, (session .empty ops).1 = n) :
        ∃ ops, (session .empty ops).1 = (op.run n).1 := by
      obtain ⟨ops, rfl⟩ := h
      exact ⟨ops ++ [op], session_concat _ ops op⟩
    intro h
    induction h with
    | empty => exact ⟨[], rfl⟩
    | @declare m n d _ declared ih =>
      have added : ((add d).run m).1 = n := by
        show (Steps.attempt (Model.add d) m).1 = n
        rw [attempt_add, declared]
      exact added ▸ further (add d) ih
    | withReporting _ r ih => exact further (report r) ih
    | merge _ built ih _ => exact further (.merge _ built) ih
    | apply _ measure a ih => exact further (.apply measure a) ih
    | applyBatch _ measures a ih => exact further (.applyBatch measures a) ih
  · rintro ⟨ops, rfl⟩
    exact reachable_session .empty ops

/-- Whatever was done, and whether it succeeded, the lists of the model and its names in use say
    the same. -/
theorem inStep_session (ops : List Operation) : (session .empty ops).1.InStep :=
  (reachable_session .empty ops).coherent.inStep

end Operation

/-! ## Merging models that are in order -/

namespace Model

/-- Two models in order, merged, are in order unless a program of one assigns to a name that its
    own model does not declare and the other declares as anything but an actuator or a global
    variable.  Then the fault is an assignment to something read-only. -/
theorem check_merge {m n merged : Model} (hm : m.Reachable) (hn : n.Reachable)
    (checkedLeft : m.check = .ok ()) (checkedRight : n.check = .ok ())
    (h : m.merge n = (merged, .ok ())) :
    (merged.check = .ok () ↔ ¬ (m.Captured n ∨ n.Captured m)) ∧
      ∀ fault, merged.check = .error fault →
        ∃ name place cls, fault = .readOnly name place cls := by
  obtain ⟨apart, rfl⟩ := (merge_eq_ok_iff hn.coherent).1 h
  exact ⟨check_join_eq_ok_iff hm.coherent hn.coherent apart checkedLeft checkedRight,
    fun _ => check_join_eq_error apart checkedLeft checkedRight⟩

/-- A program that counts in a name of its own. -/
def count : Program :=
  ⟨⟨"Count", by decide⟩, ⟨[.assign ⟨"lap", by decide⟩ ⟨"1", by decide⟩],
    ⟨[], [⟨"lap", by decide⟩], []⟩, rfl⟩⟩

/-- A sensor that is named like it. -/
def lapping : Sensor :=
  ⟨⟨"Lap", by decide⟩, "", "Electricity:Facility"⟩

/-- The program assigns to the sensor once both are in one model. -/
theorem check_merge_lap : ∃ merged,
    (empty.push (.program count)).merge (empty.push (.sensor lapping)) = (merged, .ok ()) ∧
      (empty.push (.program count)).Captured (empty.push (.sensor lapping)) ∧
      merged.check = .error (.readOnly "lap" (.program "Count") .sensor) := by
  have programmed : empty.declare (.program count) = .ok (empty.push (.program count)) := rfl
  have metered : empty.declare (.sensor lapping) = .ok (empty.push (.sensor lapping)) := rfl
  let both := (empty.push (.program count)).push (.sensor lapping)
  have merges : (empty.push (.program count)).merge (empty.push (.sensor lapping)) =
      (both, .ok ()) := rfl
  have refused : both.check = .error (.readOnly "lap" (.program "Count") .sensor) := rfl
  obtain ⟨inOrder, -⟩ :=
    check_merge (.declare .empty programmed) (.declare .empty metered) rfl rfl merges
  refine ⟨both, merges, ?_, refused⟩
  by_contra free
  -- the model with the sensor has no program that could assign to anything
  have other : ¬ (empty.push (.sensor lapping)).Captured (empty.push (.program count)) := by
    rintro ⟨p, hp, -⟩
    cases hp
  have fine := inOrder.2 (not_or.2 ⟨free, other⟩)
  rw [refused] at fine
  cases fine

end Model

end BuildingControl
