/-
  BuildingControl.Measure.Condenser

  Condenser loops in cold weather: loops and their pumps are switched off while
  it is colder outside than a threshold, and handed back otherwise.  One program
  covers all loops, with one branch for each.
-/
import BuildingControl.Measure.Script

namespace BuildingControl.Measure

open Erl Model

/-- A condenser loop and the pump on its supply side. -/
structure CondenserLoop where
  name : String
  pump : String
  pumpSpeed : PumpSpeed
  deriving BEq

/-- Condenser loops to be switched off in cold weather. -/
structure Condenser where
  loops : List CondenserLoop
  /-- The outdoor dry-bulb threshold, with its unit. -/
  threshold : String
  program : String
  manager : String
  deriving BEq

/-- A remark on a threshold outside the usual range, in °F. -/
structure Notice where
  threshold : Float
  low : Float
  high : Float

/-- The wording of a remark. -/
def Notice.message (_ : Notice) : String :=
  "condenser override threshold outside the usual range"

namespace Condenser

/-- The arguments that are not given. -/
def default : Condenser where
  loops := []
  threshold := "42.8 F"
  program := "TowerControl"
  manager := "Condenser OnOff Management"

/-- The threshold in °C as the program states it. -/
def thresholdCelsius (c : Condenser) : Except Fault Float :=
  match Quantity.readTemperature c.threshold with
  | .ok t => .ok (Number.roundTo t.celsius 6)
  | .error fault => .error (.quantity fault)

/-- The usual range of thresholds, in °F. -/
def usualRange : Float × Float := (30.0, 50.0)

/-- The remark that building the measure makes, if it makes one. -/
def notice? (c : Condenser) : Option Notice :=
  if c.loops.isEmpty then none
  else
    match Quantity.readTemperature c.threshold with
    | .error _ => none
    | .ok t =>
      let f := t.fahrenheit
      if usualRange.1 ≤ f && f ≤ usualRange.2 then none
      else some ⟨f, usualRange.1, usualRange.2⟩

/-- The outdoor temperature sensor. -/
def outdoor : String := "OutdoorTemp"

/-- The global that reports the override of loop `n`. -/
def reportName (n : Nat) : String := s!"PumpFlowOverrideReport{n}"

/-- The actuator of loop `n`. -/
def loopActuator (l : CondenserLoop) (n : Nat) : String := s!"{sanitize l.name}Actuator_Loop{n}"

/-- The actuator of the pump of loop `n`. -/
def pumpActuator (l : CondenserLoop) (n : Nat) : String := s!"{sanitize l.name}PumpFlowOverride{n}"

/-- The reported name of the override of loop `n`. -/
def outputName (n : Nat) : String := s!"EMS Condenser Flow Override On{n}"

/-- The objects of one loop. -/
def loopScript (l : CondenserLoop) (n : Nat) : Script :=
  Script.global (reportName n) ++
  Script.actuator (loopActuator l n) l.name .plantLoop "On/Off Supervisory" ++
  Script.actuator (pumpActuator l n) l.pump (.pump l.pumpSpeed) "Pump Mass Flow Rate" ++
  Script.output (outputName n) (reportName n) .systemTimestep (some "On/Off") ++
  Script.request Script.everyKey (outputName n) .hourly

/-- The branch of one loop. -/
def loopBody (threshold : Float) (l : CondenserLoop) (n : Nat) : Draft :=
  Draft.ifCompare outdoor .lt threshold ++
  Draft.set (loopActuator l n) "0.0" ++
  Draft.set (pumpActuator l n) "0.0" ++
  Draft.set (reportName n) "1.0" ++
  Draft.push .otherwise ++
  Draft.set (loopActuator l n) "Null" ++
  Draft.set (pumpActuator l n) "Null" ++
  Draft.set (reportName n) "0.0" ++
  Draft.push .endIf

/-- The program: one branch for each loop. -/
def body (c : Condenser) (threshold : Float) (a : Numbering) : Draft :=
  (c.loops.zipIdx a.next).flatMap fun l => loopBody threshold l.1 l.2

/-- The objects of the measure. -/
def script (c : Condenser) (a : Numbering) : Script :=
  if c.loops.isEmpty then [.error (.nothingToApply .condenserLoopOverride .condenserLoops)]
  else
    match c.thresholdCelsius with
    | .error fault => [.error fault]
    | .ok threshold =>
      Script.sensor outdoor "Environment" "Site Outdoor Air Drybulb Temperature" ++
      Script.forEach a c.loops loopScript ++
      Script.program c.program (c.body threshold a) ++
      Script.manager c.manager .insideHVACSystemIterationLoop c.program

end Condenser

end BuildingControl.Measure
