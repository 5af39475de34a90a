/-
  BuildingControl.Measure.ZoneAverage

  The average air temperature of a building: the mean air temperatures of its
  zones, weighted by their volumes, as a reported variable.
-/
import BuildingControl.Measure.Script

namespace BuildingControl.Measure

open Erl Model

/-- Zones whose temperatures are averaged. -/
structure ZoneAverage where
  zones : List String
  program : String
  manager : String
  /-- The global that holds the average. -/
  average : String
  /-- The name the average is reported under. -/
  outputName : String
  deriving BEq

namespace ZoneAverage

/-- The arguments that are not given. -/
def default : ZoneAverage where
  zones := []
  program := "AverageZoneTemps"
  manager := "Average Building Temperature"
  average := "AverageBuildingTemp"
  outputName := "Weighted Average Building Zone Air Temperature"

/-- The temperature of zone `n`. -/
def temperatureName (n : Nat) : String := s!"T{n}"

/-- The volume of zone `n`. -/
def volumeName (n : Nat) : String := s!"Zn{n}vol"

/-- The objects of one zone. -/
def zoneScript (zone : String) (n : Nat) : Script :=
  Script.sensor (temperatureName n) zone "Zone Mean Air Temperature" ++
  Script.internal (volumeName n) zone "Zone Air Volume"

/-- The terms of a sum as program text. -/
def sum (terms : List String) : String := String.intercalate " + " terms

/-- The weighted temperature of zone `n` as program text. -/
def weighted (n : Nat) : String := temperatureName n ++ "*" ++ volumeName n

/-- The program over the zones with these numbers. -/
def body (z : ZoneAverage) (numbers : List Nat) : Draft :=
  Draft.set "SumNumerator" (sum (numbers.map weighted)) ++
  Draft.set "SumDenominator" (sum (numbers.map volumeName)) ++
  Draft.set z.average "SumNumerator / SumDenominator"

/-- The program object; its lines are looked at before its name. -/
def programDeclaration (z : ZoneAverage) (numbers : List Nat) :
    Except Erl.Fault Declaration := do
  let code ← (z.body numbers).build
  return .program ⟨← Name.ofText? z.program, code⟩

/-- The objects of the measure. -/
def script (z : ZoneAverage) (a : Numbering) : Script :=
  if z.zones.isEmpty then [.error (.nothingToApply .zoneAverageTemperature .zones)]
  else
    Script.forEach a z.zones zoneScript ++
    Script.global z.average ++
    Script.one (z.programDeclaration (List.range' a.next z.zones.length)) ++
    Script.manager z.manager .endOfZoneTimestepBeforeZoneReporting z.program ++
    Script.output z.outputName z.average .zoneTimestep (some "C") ++
    Script.request Script.everyKey z.outputName .timestep

end ZoneAverage

end BuildingControl.Measure
