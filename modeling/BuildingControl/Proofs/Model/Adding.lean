/-
  BuildingControl.Proofs.Model.Adding

  Adding an object in place against adding it in one go.  The checks come first
  and change nothing; where a set is changed before the fault that it leads to,
  the name was in the set already.  So the steps either do all that `push` does
  or leave the model as it was (`settles_add`).
-/
import BuildingControl.Model.Adding

namespace BuildingControl.Model

open Erl Steps

/-! ## Sets of names -/

theorem KeySet.insert_of_contains {s : KeySet} {key : String} (h : s.contains key = true) :
    s.insert key = s := by
  ext k
  rw [KeySet.contains_insert]
  by_cases hk : key = k
  · subst hk
    rw [h, Bool.or_true]
  · simp [hk]

/-! ## Steps that settle -/

/-- Steps that come to a check and, if it succeeds, to one change of the model. -/
def Settles (steps : Steps Unit) (check : Model → Except Fault Unit) (change : Model → Model) :
    Prop :=
  ∀ m, attempt steps m = match check m with
    | .ok () => (change m, .ok ())
    | .error fault => (m, .error fault)

/-- A check in front. -/
theorem Settles.require {steps : Steps Unit} {check : Model → Except Fault Unit}
    {change : Model → Model} (h : Settles steps check change) (first : Except Fault Unit) :
    Settles (Steps.require first >>= fun _ => steps) (fun m => first >>= fun _ => check m)
      change := by
  intro m
  cases first with
  | error fault => rfl
  | ok u => exact h m

/-- Steps that settle leave the model as it was when they fail. -/
theorem Settles.eq_error {steps : Steps Unit} {check : Model → Except Fault Unit}
    {change : Model → Model} (h : Settles steps check change) {m left : Model} {fault : Fault}
    (failed : attempt steps m = (left, .error fault)) : left = m := by
  rw [h m] at failed
  split at failed
  · cases failed
  · cases failed
    rfl

/-! ## One lemma for each way of taking a name -/

theorem settles_takeName (name : Name) (cls : NameClass) (change : Model → Model) :
    Settles (takeName name cls >>= fun _ => modify change) (fun m => m.requireFree name)
      fun m => change (m.register name cls) := by
  intro m
  have steps : attempt (takeName name cls >>= fun _ => modify change) m =
      attempt (Steps.require (m.requireFree name) >>= fun _ =>
        modify fun m => change (m.register name cls)) m := by
    unfold takeName
    simp only [bind_assoc]
    rfl
  rw [steps]
  dsimp only
  cases m.requireFree name <;> rfl

/-- The set is changed before the fault, but where the fault follows the change is none. -/
theorem settles_takeFrom {isTaken : Model → Bool} {enter : Model → Model}
    (same : ∀ m, isTaken m = true → enter m = m) (name : String) (change : Model → Model) :
    Settles (takeFrom isTaken enter name >>= fun _ => modify change)
      (fun m => refuseIf (isTaken m) (.duplicateName name)) fun m => change (enter m) := by
  intro m
  have steps : attempt (takeFrom isTaken enter name >>= fun _ => modify change) m =
      attempt (Steps.require (refuseIf (isTaken m) (.duplicateName name)) >>= fun _ =>
        modify change) (enter m) := by
    unfold takeFrom
    simp only [bind_assoc]
    rfl
  rw [steps]
  dsimp only
  cases there : isTaken m with
  | false => rfl
  | true =>
    rw [same m there]
    rfl

theorem settles_takeOutput (name : String) (change : Model → Model) :
    Settles (takeOutput name >>= fun _ => modify change)
      (fun m => refuseIf (m.hasOutput name) (.duplicateName name))
      fun m => change { m with outputNames := m.outputNames.insert (Text.upper name) } := by
  refine settles_takeFrom (fun m there => ?_) name change
  rw [KeySet.insert_of_contains there]

theorem settles_takeManager (name : String) (change : Model → Model) :
    Settles (takeManager name >>= fun _ => modify change)
      (fun m => refuseIf (m.hasManager name) (.duplicateName name))
      fun m => change { m with managerNames := m.managerNames.insert (Text.upper name) } := by
  refine settles_takeFrom (fun m there => ?_) name change
  rw [KeySet.insert_of_contains there]

/-- A request that is there already is dropped, which is what `push` does with it. -/
theorem settles_request (check : Except Fault Unit) (r : OutputRequest) :
    Settles (Steps.require check >>= fun _ => do
      unless (← get).hasRequest r do
        modify fun m => { m with requests := m.requests ++ [r] })
      (fun _ => check) fun m => m.push (.request r) := by
  intro m
  cases check with
  | error fault => rfl
  | ok u =>
    show attempt (if m.hasRequest r then pure () else modify fun m =>
      { m with requests := m.requests ++ [r] }) m = (if m.hasRequest r then m else _, _)
    split <;> rfl

/-! ## Adding an object -/

/-- Adding an object step by step is looking at everything first and pushing it then: a fault
    leaves the model as it was, names in use included. -/
theorem settles_add (d : Declaration) :
    Settles (add d) (fun m => m.admit? d) fun m => m.push d := by
  cases d with
  | sensor s =>
    have name := settles_takeName s.name .sensor fun m => { m with sensors := m.sensors ++ [s] }
    exact (name.require _).require _
  | actuator a =>
    have name := settles_takeName a.name .actuator
      fun m => { m with actuators := m.actuators ++ [a] }
    exact ((name.require _).require _).require _
  | global name =>
    exact settles_takeName name .global fun m => { m with globals := m.globals ++ [name] }
  | trend t =>
    have name := settles_takeName t.name .trend fun m => { m with trends := m.trends ++ [t] }
    exact name.require _
  | internal v =>
    have name := settles_takeName v.name .internal
      fun m => { m with internals := m.internals ++ [v] }
    exact (name.require _).require _
  | construction c =>
    have name := settles_takeName c.name .constructionIndex
      fun m => { m with constructions := m.constructions ++ [c] }
    exact name.require _
  | output o =>
    have name := settles_takeOutput o.name fun m => { m with outputs := m.outputs ++ [o] }
    exact (name.require _).require _
  | program p =>
    exact settles_takeName p.name .program fun m => { m with programs := m.programs ++ [p] }
  | subroutine p =>
    exact settles_takeName p.name .subroutine
      fun m => { m with subroutines := m.subroutines ++ [p] }
  | manager c =>
    have name := settles_takeManager c.name fun m => { m with managers := m.managers ++ [c] }
    exact name.require _
  | request r => exact (settles_request _ r).require _

end BuildingControl.Model
