/-
  BuildingControl.Proofs.Measure.Spelling

  What can be wrong with an object that a measure spells out.  It has a name that is
  none, or a control that its component does not offer; whatever else a measure
  fails for lies in its programs, in its arguments, or in the other objects.
-/
import BuildingControl.Measure.Script
import BuildingControl.Proofs.Erl.Fault

namespace BuildingControl.Measure

open Erl Model

/-- Whether a fault lies in how an object is written down. -/
def Fault.isSpelling : Fault → Bool
  | .program fault => fault.isSpelling
  | _ => false

namespace Script

/-- A script that fails of itself only for how its objects are written down. -/
def Spelled (s : Script) : Prop :=
  OnFaults (fun fault => fault.isSpelling = true) s

theorem Spelled.append {s t : Script} (hs : s.Spelled) (ht : t.Spelled) : Spelled (s ++ t) :=
  onFaults_append.2 ⟨hs, ht⟩

theorem spelled_one {d : Except Erl.Fault Declaration}
    (h : OnFault (fun fault => fault.isSpelling = true) d) : Spelled (one d) :=
  onFaults_singleton.2 (onFault_mapError_iff.2 h)

theorem spelling_name (text : String) :
    OnFault (fun fault => fault.isSpelling = true) (Name.ofText? text) :=
  (textual_name text).imp fun _ => Erl.Fault.isSpelling_of_isTextual

section Objects

variable (name : String)

theorem spelled_sensor (key output : String) : Spelled (sensor name key output) :=
  spelled_one ((spelling_name name).bind fun _ _ => onFault_ok _)

theorem spelled_actuator (component : String) (kind : ComponentKind) (control : String) :
    Spelled (actuator name component kind control) := by
  refine spelled_one ((spelling_name name).bind fun n _ => ?_)
  have offered : OnFault (fun fault => fault.isSpelling = true)
      (Actuator.ofComponent n ⟨component, kind⟩ control) := by
    unfold Actuator.ofComponent
    dsimp only
    split
    · exact onFault_ok _
    · exact onFault_error.2 rfl
  exact offered.bind fun _ _ => onFault_ok _

theorem spelled_global : Spelled (global name) :=
  spelled_one ((spelling_name name).bind fun _ _ => onFault_ok _)

theorem spelled_trend (source : String) (timesteps : Nat) :
    Spelled (trend name source timesteps) :=
  spelled_one ((spelling_name name).bind fun _ _ =>
    (spelling_name source).bind fun _ _ => onFault_ok _)

theorem spelled_internal (key dataType : String) : Spelled (internal name key dataType) :=
  spelled_one ((spelling_name name).bind fun _ _ => onFault_ok _)

theorem spelled_manager (point : CallingPoint) (program : String) :
    Spelled (manager name point program) :=
  spelled_one ((spelling_name program).bind fun _ _ => onFault_ok _)

theorem spelled_output (source : String) (frequency : UpdateFrequency) (units : Option String) :
    Spelled (output name source frequency units) :=
  spelled_one ((spelling_name source).bind fun _ _ => onFault_ok _)

theorem spelled_request (key variableName : String) (frequency : ReportingFrequency) :
    Spelled (request key variableName frequency) :=
  spelled_one (onFault_ok _)

end Objects

end Script

end BuildingControl.Measure
