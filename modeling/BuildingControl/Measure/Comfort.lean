/-
  BuildingControl.Measure.Comfort

  A run that ends on lasting discomfort.  For each zone a trend logs the
  predicted mean vote; a program averages the trend over a window and runs a
  subroutine that stops the simulation once the average leaves the band.  The
  halt code is the number of the zone, `100` for the upper bound or `900` for
  the lower one, and the bound.
-/
import BuildingControl.Measure.Script

namespace BuildingControl.Measure

open Erl Model

/-- Zones whose comfort is watched. -/
structure Comfort where
  zones : List String
  /-- The run ends at a vote of minus this or below. -/
  minVote : Float
  maxVote : Float
  /-- The length of the averaging window. -/
  trendHours : Float
  /-- The timestep of the simulation. -/
  timestepMinutes : Float
  deriving BEq

namespace Comfort

/-- The arguments that are not given. -/
def default : Comfort where
  zones := []
  minVote := 1.3
  maxVote := 2.5
  trendHours := 2.0
  timestepMinutes := 15.0

/-- A number that has to be finite. -/
def requireFinite (what : String) (x : Float) : Except Fault Float :=
  (Number.requireFinite what x).mapError .number

/-- The timesteps in the averaging window. -/
def trendTimesteps (c : Comfort) : Except Fault Nat := do
  let hours ← requireFinite "trend length" c.trendHours
  let minutes ← requireFinite "timestep" c.timestepMinutes
  if minutes ≤ 0 then throw (.refused .comfortHalt .timestepNotPositive)
  let steps := Number.roundHalfAway ((Quantity.Duration.ofHours hours).minutes / minutes)
  if steps < 1 || Float.ofNat (Nat.pow 2 32 - 1) < steps then
    throw (.refused .comfortHalt (.noWholeTimestep hours minutes))
  return steps.toUInt32.toNat

/-- The band has to be finite and not upside down. -/
def checkBounds (c : Comfort) : Except Fault Unit := do
  let low ← requireFinite "minimum PMV" c.minVote
  let high ← requireFinite "maximum PMV" c.maxVote
  if high < low then throw (.refused .comfortHalt (.boundsCrossed low high))

/-- The output that is watched. -/
def voteOutput : String := "Zone Thermal Comfort Fanger Model PMV"

/-- The sensor of zone `n`. -/
def voteName (n : Nat) : String := s!"PMV{n}"

/-- The trend of zone `n`. -/
def trendName (n : Nat) : String := s!"PMVtrendLog{n}"

/-- The running average of zone `n`. -/
def averageName (n : Nat) : String := s!"PMV{n}runningAvg"

/-- The subroutine that ends the run for zone `n`. -/
def haltName (n : Nat) : String := s!"a_{n}_Kill_Run_if_Uncomfortable"

/-- The program that updates the average of zone `n`. -/
def updateName (n : Nat) : String := s!"updateMy_averagePMV{n}"

/-- Which bound was crossed. -/
inductive Side
  | upper
  | lower
  deriving DecidableEq

/-- The digits of a side inside a halt code. -/
def Side.code : Side → String
  | .upper => "100"
  | .lower => "900"

/-- The halt code of zone `n`. -/
def haltCode (n : Nat) (side : Side) (bound : Float) : String :=
  s!"{n}{side.code}{Number.format bound}"

/-- The subroutine body of zone `n`. -/
def haltBody (c : Comfort) (n : Nat) : Draft :=
  Draft.ifCompare (averageName n) .ge c.maxVote ++
  Draft.set "tmpError" s!"@FatalHaltEp {haltCode n .upper c.maxVote}" ++
  Draft.push .endIf ++
  Draft.ifCompare (averageName n) .le (-c.minVote) ++
  Draft.set "tmpError" s!"@FatalHaltEp {haltCode n .lower c.minVote}" ++
  Draft.push .endIf

/-- The program body of zone `n`. -/
def updateBody (timesteps : Nat) (n : Nat) : Draft :=
  Draft.set (averageName n) s!"@TrendAverage {trendName n} {timesteps}" ++
  Draft.run (haltName n)

/-- The objects of one zone. -/
def zoneScript (c : Comfort) (timesteps : Nat) (zone : String) (n : Nat) : Script :=
  Script.sensor (voteName n) zone voteOutput ++
  Script.request zone voteOutput .timestep ++
  Script.trend (trendName n) (voteName n) timesteps ++
  Script.global (averageName n) ++
  Script.subroutine (haltName n) (c.haltBody n).build ++
  Script.program (updateName n) (updateBody timesteps n) ++
  Script.manager s!"Average Zone {n} PMV" .endOfZoneTimestepBeforeZoneReporting (updateName n) ++
  Script.output s!"a_{n} Running {Number.format c.trendHours} Hour Average PMV" (averageName n)
    .zoneTimestep none

/-- The objects of the measure. -/
def script (c : Comfort) (a : Numbering) : Script :=
  if c.zones.isEmpty then [.error (.nothingToApply .comfortHalt .zones)]
  else
    match c.checkBounds with
    | .error fault => [.error fault]
    | .ok () =>
      match c.trendTimesteps with
      | .error fault => [.error fault]
      | .ok timesteps => Script.forEach a c.zones (c.zoneScript timesteps)

end Comfort

end BuildingControl.Measure
