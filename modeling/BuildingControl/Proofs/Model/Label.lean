/-
  BuildingControl.Proofs.Model.Label

  The spellings of names.  Every object but a request carries one: that of a
  variable, program or subroutine, of a calling manager or of a reported output.
  Objects whose names differ by more than the case of letters take different slots
  (`nodup_slots`), and an object with a free slot is never refused for its name.
-/
import BuildingControl.Proofs.Erl.Fault
import BuildingControl.Proofs.Model.Join
import BuildingControl.Proofs.Text.Letter
import Mathlib.Data.List.Nodup

namespace BuildingControl.Model

open Erl

/-! ## Labels -/

/-- The name that an object carries, as it is spelled. -/
def Declaration.label? : Declaration → Option String
  | .output o => some o.name
  | .manager c => some c.name
  | d => d.binding?.map fun e => e.1.text

/-- The names of the objects of a model, kind by kind. -/
def labels (m : Model) : List String :=
  m.declarations.filterMap Declaration.label?

/-- The upper case, in all alphabets, of a name that takes a slot. -/
def Slot.capitals : Slot → String
  | .name key => Text.upper key
  | .manager key => key
  | .output key => key

theorem Declaration.capitals_slot? (d : Declaration) :
    d.slot?.map Slot.capitals = d.label?.map Text.upper := by
  cases d <;>
    simp [slot?, label?, binding?, Slot.capitals, Name.key, Text.upper_asciiUpper]

/-- Objects with different names take different slots. -/
theorem nodup_slots {ds : List Declaration}
    (h : ((ds.filterMap Declaration.label?).map Text.upper).Nodup) :
    (ds.filterMap Declaration.slot?).Nodup := by
  have same : (ds.filterMap Declaration.slot?).map Slot.capitals =
      (ds.filterMap Declaration.label?).map Text.upper := by
    rw [List.map_filterMap, List.map_filterMap]
    exact List.filterMap_congr fun d _ => d.capitals_slot?
  rw [← same] at h
  exact List.Nodup.of_map _ h

theorem labels_push (m : Model) (d : Declaration) :
    (m.push d).labels.Perm (m.labels ++ d.label?.toList) := by
  by_cases hd : m.drops d = true
  · -- what is dropped is a request
    have none : d.label? = none := by
      cases d with
      | request r => rfl
      | _ => cases hd
    rw [push_of_drops hd, none, Option.toList_none, List.append_nil]
  · have perm := (declarations_push_perm (by simpa using hd)).filterMap Declaration.label?
    rw [labels, labels]
    refine perm.trans ?_
    rw [List.filterMap_cons]
    cases d.label? with
    | none => simp
    | some x => exact (List.perm_append_singleton x _).symm

theorem labels_foldl_push (m : Model) (ds : List Declaration) :
    (ds.foldl push m).labels.Perm (m.labels ++ ds.filterMap Declaration.label?) := by
  induction ds generalizing m with
  | nil => simp
  | cons d ds ih =>
    rw [List.foldl_cons]
    refine (ih _).trans (((labels_push m d).append_right _).trans ?_)
    rw [List.append_assoc, List.filterMap_cons]
    cases d.label? <;> exact List.Perm.refl _

theorem labels_join (m : Model) {n : Model} (h : Coherent n) :
    (m.join n).labels.Perm (m.labels ++ n.labels) := by
  rw [← foldl_push_declarations m h]
  exact labels_foldl_push m _

/-! ## Names that are taken -/

theorem clashless_requireField (field : HostField) (value : String) :
    Clashless (requireField field value) := by
  unfold requireField Clashless
  split
  · exact onFault_ok _
  · exact onFault_error.2 rfl

/-- What does not occur is not refused. -/
theorem clashless_refuseIf_of_not {condition : Bool} (fault : Fault) (h : condition = false) :
    Clashless (refuseIf condition fault) := by
  rw [refuseIf_eq_ok_iff.2 h]
  exact onFault_ok _

/-- An object with a free slot is not refused for its name. -/
theorem clashless_admit? {m : Model} {d : Declaration} (free : m.Free d) :
    Clashless (m.admit? d) := by
  have field := clashless_requireField
  have name {n : Name} {cls : NameClass} (binding : d.binding? = some (n, cls)) :
      Clashless (m.requireFree n) :=
    clashless_refuseIf_of_not _ (free _ (Declaration.slot?_of_binding? binding))
  cases d with
  | sensor s => exact (field _ _).bind fun _ _ => (field _ _).bind fun _ _ => name rfl
  | actuator a =>
    exact (field _ _).bind fun _ _ => (field _ _).bind fun _ _ => (field _ _).bind fun _ _ =>
      name rfl
  | global n => exact name rfl
  | trend t =>
    have logged : Clashless (refuseIf (t.timesteps == 0) (.argument .emptyTrend)) := by
      unfold refuseIf Clashless
      split
      · exact onFault_error.2 rfl
      · exact onFault_ok _
    exact logged.bind fun _ _ => name rfl
  | internal v => exact (field _ _).bind fun _ _ => (field _ _).bind fun _ _ => name rfl
  | construction c => exact (field _ _).bind fun _ _ => name rfl
  | output o =>
    exact (field _ _).bind fun _ _ => (field _ _).bind fun _ _ =>
      clashless_refuseIf_of_not _ (free _ rfl)
  | program p => exact name rfl
  | subroutine p => exact name rfl
  | manager c =>
    exact (field _ _).bind fun _ _ => clashless_refuseIf_of_not _ (free _ rfl)
  | request r => exact (field _ _).bind fun _ _ => field _ _

theorem clashless_declare {m : Model} {d : Declaration} (free : m.Free d) :
    Clashless (m.declare d) :=
  (clashless_admit? free).map _

end BuildingControl.Model
