/-
  BuildingControl.Proofs.Measure.Operation

  Operations on a model, one after another.  An operation works on the model in
  place and may stop halfway, so what it leaves behind is part of its result.
  Each kind of operation turns out to leave the model alone when it fails: adding
  an object because of its steps (`settles_add`), merging because the names of a
  coherent model are all that can stand in the way (`merge_eq_error`), and
  measures because they are built apart from the model.
-/
import BuildingControl.Proofs.Measure.Reachable
import BuildingControl.Proofs.Model.Adding

namespace BuildingControl

open Erl Model

/-! ## Operations -/

/-- What can be asked of a model. -/
inductive Operation
  | add (d : Declaration)
  | report (r : Reporting)
  | merge (other : Model) (built : other.Reachable)
  | apply (measure : Measure) (a : Numbering)
  | applyBatch (measures : List Measure) (a : Numbering)

namespace Operation

/-- The same attempt, for operations that have no numbering as their result. -/
def plain (r : Attempt Erl.Fault Unit) : Attempt Measure.Fault (Option Numbering) :=
  (r.1, (r.2.mapError Measure.Fault.program).map fun _ => none)

/-- The same attempt, for operations that leave a numbering. -/
def numbered (r : Attempt Measure.Fault Numbering) : Attempt Measure.Fault (Option Numbering) :=
  (r.1, r.2.map some)

/-- The model an operation leaves behind and its result. -/
def run (m : Model) : Operation → Attempt Measure.Fault (Option Numbering)
  | add d => plain (Steps.attempt (Model.add d) m)
  | report r => (m.withReporting r, .ok none)
  | merge other _ => plain (m.merge other)
  | apply measure a => numbered (Measure.apply m measure a)
  | applyBatch measures a => numbered (Measure.applyBatch m measures a)

/-- Operations one after another, each on the model that the one before left, and their results.
    A fault does not end the session. -/
def session (m : Model) : List Operation → Model × List (Except Measure.Fault (Option Numbering))
  | [] => (m, [])
  | op :: later =>
    let rest := session (op.run m).1 later
    (rest.1, (op.run m).2 :: rest.2)

/-! ## Faults of each kind of operation -/

theorem plain_eq_error {r : Attempt Erl.Fault Unit} {left : Model} {fault : Measure.Fault}
    (h : plain r = (left, .error fault)) : ∃ f, r = (left, .error f) := by
  obtain ⟨m, f | u⟩ := r
  · cases h
    exact ⟨f, rfl⟩
  · cases h

theorem numbered_eq_error {r : Attempt Measure.Fault Numbering} {left : Model}
    {fault : Measure.Fault} (h : numbered r = (left, .error fault)) : r = (left, .error fault) := by
  obtain ⟨m, f | a⟩ := r
  · cases h
    rfl
  · cases h

theorem mergeBuilt_eq_error {m o left : Model} {next : Numbering} {fault : Measure.Fault}
    (coherent : Coherent o) (h : Measure.mergeBuilt m o next = (left, .error fault)) :
    left = m := by
  unfold Measure.mergeBuilt at h
  rcases merged : m.merge o with ⟨n, f | u⟩
  · rw [merged] at h
    cases h
    exact merge_eq_error coherent merged
  · rw [merged] at h
    cases h

theorem apply_eq_error {m left : Model} {measure : Measure} {a : Numbering}
    {fault : Measure.Fault} (h : Measure.apply m measure a = (left, .error fault)) : left = m := by
  unfold Measure.apply at h
  cases build : measure.build a with
  | error f =>
    rw [build] at h
    cases h
    rfl
  | ok built =>
    rw [build] at h
    exact mergeBuilt_eq_error (Measure.coherent_of_build build) h

theorem applyBatch_eq_error {m left : Model} {measures : List Measure} {a : Numbering}
    {fault : Measure.Fault} (h : Measure.applyBatch m measures a = (left, .error fault)) :
    left = m := by
  unfold Measure.applyBatch at h
  split at h
  · cases h
    rfl
  · split at h
    · cases h
      rfl
    · next combined hc => exact mergeBuilt_eq_error (Measure.coherent_combine coherent_empty hc) h

/-! ## Sessions -/

/-- An operation that fails leaves the model as it was. -/
theorem run_eq_error {m left : Model} {op : Operation} {fault : Measure.Fault}
    (h : op.run m = (left, .error fault)) : left = m := by
  cases op with
  | add d =>
    obtain ⟨f, hf⟩ := plain_eq_error h
    exact (settles_add d).eq_error hf
  | report r => cases h
  | merge other built =>
    obtain ⟨f, hf⟩ := plain_eq_error h
    exact merge_eq_error built.coherent hf
  | apply measure a => exact apply_eq_error (numbered_eq_error h)
  | applyBatch measures a => exact applyBatch_eq_error (numbered_eq_error h)

/-- An operation that fails leaves every list, the settings and the names in use as they were,
    and whatever is done later comes to the same as without it. -/
theorem failure_leaves_no_trace {m left : Model} {op : Operation} {fault : Measure.Fault}
    (h : op.run m = (left, .error fault)) :
    left = m ∧ ∀ later,
      session m (op :: later) = ((session m later).1, .error fault :: (session m later).2) := by
  have same := run_eq_error h
  refine ⟨same, fun later => ?_⟩
  rw [session, h]
  dsimp only
  rw [same]

/-- A model with one global variable. -/
def oneGlobal : Model := Model.empty.push (.global ⟨"tick", by decide⟩)

/-- A merge that finds its first name taken, the request after it never made. -/
theorem failure_leaves_no_trace_oneGlobal :
    session oneGlobal
      [.merge oneGlobal (.declare .empty (rfl : Model.empty.declare (.global ⟨"tick", by decide⟩) =
        .ok oneGlobal))] = (oneGlobal, [.error (.program (.duplicateName "tick"))]) :=
  (failure_leaves_no_trace (by rfl)).2 []

/-- The operations of a session that succeed. -/
def succeeding (m : Model) : List Operation → List Operation
  | [] => []
  | op :: later =>
    if (op.run m).2.isOk then op :: succeeding (op.run m).1 later
    else succeeding (op.run m).1 later

/-- A session comes to what its successful operations alone come to. -/
theorem session_succeeding (m : Model) (ops : List Operation) :
    session m (succeeding m ops) =
      ((session m ops).1, (session m ops).2.filter fun r => r.isOk) := by
  induction ops generalizing m with
  | nil => rfl
  | cons op later ih =>
    rw [succeeding, session]
    rcases hr : op.run m with ⟨left, fault | result⟩
    · have same : left = m := run_eq_error hr
      subst same
      exact ih left
    · simp only [Except.isOk, Except.toBool, if_true, List.filter_cons_of_pos]
      rw [session, hr]
      dsimp only
      rw [ih left]
      rfl

end Operation

end BuildingControl
