/-
  BuildingControl.Proofs.Measure.Reachable

  The models that a session can come to: objects are added, settings changed,
  models merged and measures applied, in any order and any number of times.  An
  operation that fails counts with the model it leaves behind.  All of these
  models are coherent.
-/
import BuildingControl.Proofs.Measure.Batch

namespace BuildingControl

open Erl Model

/-- The models that operations lead to from the empty one. -/
inductive Model.Reachable : Model → Prop
  | empty : Reachable .empty
  | declare {m n : Model} {d : Declaration} (before : Reachable m) (declared : m.declare d = .ok n) :
      Reachable n
  | withReporting {m : Model} (before : Reachable m) (r : Reporting) :
      Reachable (m.withReporting r)
  | merge {m other : Model} (before : Reachable m) (built : Reachable other) :
      Reachable (m.merge other).1
  | apply {m : Model} (before : Reachable m) (measure : Measure) (a : Numbering) :
      Reachable (Measure.apply m measure a).1
  | applyBatch {m : Model} (before : Reachable m) (measures : List Measure) (a : Numbering) :
      Reachable (Measure.applyBatch m measures a).1

namespace Measure

theorem coherent_mergeBuilt {m : Model} (h : Coherent m) (objects : Model) (next : Numbering) :
    Coherent (mergeBuilt m objects next).1 := by
  have merged := h.merge objects
  unfold mergeBuilt
  rcases hm : m.merge objects with ⟨left, _ | _⟩ <;> rwa [hm] at merged

theorem coherent_apply {m : Model} (h : Coherent m) (measure : Measure) (a : Numbering) :
    Coherent (apply m measure a).1 := by
  unfold apply
  split
  · exact h
  · exact coherent_mergeBuilt h _ _

theorem coherent_applyBatch {m : Model} (h : Coherent m) (measures : List Measure)
    (a : Numbering) : Coherent (applyBatch m measures a).1 := by
  unfold applyBatch
  split
  · exact h
  · split
    · exact h
    · exact coherent_mergeBuilt h _ _

end Measure

/-- Every model that a session can come to is coherent. -/
theorem Model.Reachable.coherent {m : Model} (h : m.Reachable) : Coherent m := by
  induction h with
  | empty => exact coherent_empty
  | declare _ declared ih => exact ih.declare declared
  | withReporting _ r ih => exact ih.withReporting r
  | merge _ _ ih _ => exact ih.merge _
  | apply _ measure a ih => exact Measure.coherent_apply ih measure a
  | applyBatch _ measures a ih => exact Measure.coherent_applyBatch ih measures a

end BuildingControl
