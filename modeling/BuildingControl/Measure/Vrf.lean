/-
  BuildingControl.Measure.Vrf

  Variable refrigerant flow systems held in heating.  The outdoor units are put
  into heating mode and every terminal unit runs at one part load ratio.  The
  numbers of the modes are set once per environment.
-/
import BuildingControl.Measure.Script

namespace BuildingControl.Measure

open Erl Model

/-- An outdoor unit and the terminal units attached to it. -/
structure VrfUnit where
  name : String
  terminals : List String
  deriving BEq

/-- Outdoor units to be held in heating. -/
structure Vrf where
  units : List VrfUnit
  /-- The ratio every terminal runs at: above zero, at most one. -/
  partLoadRatio : Float
  initProgram : String
  initManager : String
  program : String
  manager : String
  deriving BEq

namespace Vrf

/-- The arguments that are not given. -/
def default : Vrf where
  units := []
  partLoadRatio := 0.5
  initProgram := "InitializeVRFControlModes"
  initManager := "Init VRF Control Mode Constants"
  program := "VRFControl"
  manager := "VRF OnOff Management"

/-- The part load ratio has to be above zero and at most one. -/
def checkRatio (v : Vrf) : Except Fault Unit :=
  match Number.requireFinite "part load ratio" v.partLoadRatio with
  | .error fault => .error (.number fault)
  | .ok ratio =>
    if ratio ≤ 0 || 1 < ratio then .error (.refused .vrfModeOverride (.partLoadRatio ratio))
    else .ok ()

/-- The modes of an outdoor unit with their numbers. -/
inductive Mode
  | off
  | cooling
  | heating
  deriving DecidableEq

/-- Every mode, in order. -/
def Mode.all : List Mode := [.off, .cooling, .heating]

/-- The global with the number of a mode for unit `n`. -/
def Mode.global : Mode → Nat → String
  | .off, n => s!"vrf_status_off_{n}"
  | .cooling, n => s!"vrf_status_cooling_{n}"
  | .heating, n => s!"vrf_status_heating_{n}"

/-- The number of a mode as program text. -/
def Mode.number : Mode → String
  | .off => "0.0"
  | .cooling => "1.0"
  | .heating => "2.0"

/-- The actuator of the mode of unit `n`. -/
def modeActuator (n : Nat) : String := s!"VRF_Actuator_OnOff{n}"

/-- The actuator of the ratio of a terminal of unit `n`. -/
def ratioActuator (terminal : String) (n : Nat) : String := s!"{sanitize terminal}_VRF{n}"

/-- The objects of one unit. -/
def unitScript (u : VrfUnit) (n : Nat) : Script :=
  Mode.all.flatMap (fun mode => Script.global (mode.global n)) ++
  Script.actuator (modeActuator n) u.name .vrfHeatPump "Operating Mode" ++
  u.terminals.flatMap (fun terminal =>
    Script.actuator (ratioActuator terminal n) terminal .vrfTerminal "Part Load Ratio") ++
  Script.output s!"Erl VRF Control Status{n}" (modeActuator n) .systemTimestep none

/-- The lines that set the numbers of the modes for unit `n`. -/
def initLines (n : Nat) : Draft :=
  Mode.all.flatMap fun mode => Draft.set (mode.global n) mode.number

/-- The lines of one unit: its mode and the ratio, for every terminal. -/
def controlLines (ratio : String) (u : VrfUnit) (n : Nat) : Draft :=
  u.terminals.flatMap fun terminal =>
    Draft.set (modeActuator n) (Mode.heating.global n) ++
    Draft.set (ratioActuator terminal n) ratio

/-- The program that sets the numbers of the modes. -/
def initBody (v : Vrf) (a : Numbering) : Draft :=
  (v.units.zipIdx a.next).flatMap fun u => initLines u.2

/-- The program that holds the units in heating. -/
def controlBody (v : Vrf) (a : Numbering) : Draft :=
  (v.units.zipIdx a.next).flatMap fun u =>
    controlLines (Number.format v.partLoadRatio) u.1 u.2

/-- The objects of the measure. -/
def script (v : Vrf) (a : Numbering) : Script :=
  if v.units.isEmpty then [.error (.nothingToApply .vrfModeOverride .outdoorUnits)]
  else if v.units.all fun u => u.terminals.isEmpty then
    [.error (.nothingToApply .vrfModeOverride .terminals)]
  else
    Script.require v.checkRatio ++
    Script.forEach a v.units unitScript ++
    Script.program v.initProgram (v.initBody a) ++
    Script.program v.program (v.controlBody a) ++
    Script.manager v.initManager .beginNewEnvironment v.initProgram ++
    Script.manager v.manager .insideHVACSystemIterationLoop v.program

end Vrf

end BuildingControl.Measure
