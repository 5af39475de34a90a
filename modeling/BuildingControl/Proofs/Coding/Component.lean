/-
  BuildingControl.Proofs.Coding.Component

  Choices, components and reporting settings are decoded as they were encoded.
-/
import BuildingControl.Coding.Component
import BuildingControl.Proofs.Document.Rendering
import BuildingControl.Proofs.Model.Keyword
import Mathlib.Data.List.Nodup

namespace BuildingControl.Coding

open Document Document.Source Model Erl

variable {ν : Type} {admits : Float → Prop} {keeps : Float → Bool} {render : Value → ν}

/-! ## Choices -/

/-- A choice whose values are told apart by their words. -/
class DistinctWords (α : Type) [Keyword α] : Prop where
  ofWord?_word (a : α) : Keyword.ofWord? α (word a) = some a

instance : DistinctWords Comparison where
  ofWord?_word a := by cases a <;> rfl

instance : DistinctWords PumpSpeed where
  ofWord?_word a := by cases a <;> rfl

instance : DistinctWords ScheduleForm where
  ofWord?_word a := by cases a <;> rfl

instance : DistinctWords OutputData where
  ofWord?_word a := by cases a <;> rfl

instance : DistinctWords UpdateFrequency where
  ofWord?_word a := by cases a <;> rfl

instance : DistinctWords DictionaryReporting where
  ofWord?_word a := by cases a <;> rfl

instance : DistinctWords DebugLevel where
  ofWord?_word a := by cases a <;> rfl

theorem choice?_render [Source ν] (F : Faithful admits keeps render) {α : Type} [Keyword α]
    [DistinctWords α] (a : α) : choice? α (render (choiceValue a)) = some a := by
  rw [choice?, choiceValue, F.word]
  exact DistinctWords.ofWord?_word a

/-- Among values with different keys, the first with the key of a value is that value. -/
theorem find?_key_eq_some {α β : Type} [DecidableEq β] {key : α → β} {values : List α}
    (nodup : (values.map key).Nodup) {a : α} (h : a ∈ values) :
    values.find? (fun b => key b == key a) = some a := by
  induction values with
  | nil => cases h
  | cons b rest ih =>
    rw [List.map_cons, List.nodup_cons] at nodup
    rcases List.mem_cons.1 h with rfl | h
    · rw [List.find?_cons, beq_self_eq_true]
    · have other : key b ≠ key a := fun same => nodup.1 (same ▸ List.mem_map_of_mem h)
      rw [List.find?_cons, beq_eq_false_iff_ne.2 other]
      exact ih nodup.2 h

/-- The letters of the words of calling points differ in more than their case. -/
theorem nodup_callingPoint_letters :
    ((Keyword.values : List CallingPoint).map fun p => (word p).toList.map Char.toUpper).Nodup := by
  decide +kernel

theorem CallingPoint.ofText?_word (p : CallingPoint) : CallingPoint.ofText? (word p) = .ok p := by
  have listed : p ∈ (Keyword.values : List CallingPoint) := by
    cases p <;> decide
  have nodup : ((Keyword.values : List CallingPoint).map fun p => Text.asciiUpper (word p)).Nodup := by
    have upper := (List.nodup_map_iff fun _ _ => String.ofList_injective).2
      nodup_callingPoint_letters
    rwa [List.map_map] at upper
  have trimmed : Text.trim (word p) = word p := Text.trim_eq_self (isCell_callingPoint p).trimmed
  rw [CallingPoint.ofText?, trimmed]
  simp only [Text.sameLetters, find?_key_eq_some nodup listed]

/-- Calling points are read in any spelling, and so in their own. -/
theorem callingPoint?_render [Source ν] (F : Faithful admits keeps render) (p : CallingPoint) :
    callingPoint? (render (choiceValue p)) = some p := by
  rw [callingPoint?, choiceValue, F.text, Option.bind_some, CallingPoint.ofText?_word]
  rfl

/-! ## Components -/

theorem fits_kindFields (kind : ComponentKind) :
    Value.Fits admits 1 (.object (kindFields kind)) := by
  cases kind <;> simp [kindFields, choiceValue, Value.Fits]

theorem kindOfTag?_content (kind : ComponentKind) :
    kindOfTag? (kindTag kind) (Value.content keeps (.object (kindFields kind))) = some kind := by
  have F : Faithful (fun _ => True) keeps (Value.content keeps) := faithful_content
  cases kind with
  | pump speed =>
    have r := F.fields ["speed"] [("speed", choiceValue speed)] (by simp) (by simp)
    simp [kindTag, kindFields, kindOfTag?, r, choice?_render F]
  | schedule form =>
    have r := F.fields ["kind"] [("kind", choiceValue form)] (by simp) (by simp)
    simp [kindTag, kindFields, kindOfTag?, r, choice?_render F]
  | _ => rfl

theorem kind?_render [TaggedSource ν] (T : FaithfulTags admits keeps render)
    (kind : ComponentKind) : kind? (render (kindValue kind)) = some kind := by
  have untagged : "type" ∉ (kindFields kind).map Prod.fst := by
    cases kind <;> simp [kindFields]
  rw [kind?, kindValue, T.tagged 1 _ _ _ untagged (fits_kindFields kind), Option.bind_some]
  exact kindOfTag?_content kind

theorem component?_render [TaggedSource ν] (T : FaithfulTags admits keeps render) (c : Component) :
    component? (render (componentValue c)) = some c := by
  have r := T.fields ["name", "kind"] [("name", .text c.name), ("kind", kindValue c.kind)]
    (by simp) (by simp)
  simp [component?, componentValue, r, T.text, kind?_render T]

/-! ## Reporting settings -/

theorem reporting?_render [Source ν] (F : Faithful admits keeps render) (r : Reporting) :
    reporting? (render (reportingValue r)) = some r := by
  have fields := F.fields
    ["actuator_availability", "internal_variable_availability", "debug_level"]
    [("actuator_availability", choiceValue r.actuatorAvailability),
     ("internal_variable_availability", choiceValue r.internalVariableAvailability),
     ("debug_level", choiceValue r.debugLevel)] (by simp) (by simp)
  simp [reporting?, reportingValue, fields, choice?_render F]

end BuildingControl.Coding
