/-
  BuildingControl.Measure.Basic

  A measure of any kind, and what building it gives: a model with its objects
  and the numbering after it.
-/
import BuildingControl.Measure.Comfort
import BuildingControl.Measure.Condenser
import BuildingControl.Measure.Curve
import BuildingControl.Measure.Sizing
import BuildingControl.Measure.Thermochromic
import BuildingControl.Measure.Vrf
import BuildingControl.Measure.ZoneAverage

namespace BuildingControl

open Erl

/-- An edit that adds control programs and their objects to a model. -/
inductive Measure
  | thermochromicWindow (m : Measure.Thermochromic)
  | condenserLoopOverride (m : Measure.Condenser)
  | comfortHalt (m : Measure.Comfort)
  | discretePackageSizing (m : Measure.Sizing)
  | zoneAverageTemperature (m : Measure.ZoneAverage)
  | curveResultOverride (m : Measure.Curve)
  | vrfModeOverride (m : Measure.Vrf)
  deriving BEq

namespace Measure

/-- The kind of a measure. -/
def kind : Measure → Kind
  | thermochromicWindow _ => .thermochromicWindow
  | condenserLoopOverride _ => .condenserLoopOverride
  | comfortHalt _ => .comfortHalt
  | discretePackageSizing _ => .discretePackageSizing
  | zoneAverageTemperature _ => .zoneAverageTemperature
  | curveResultOverride _ => .curveResultOverride
  | vrfModeOverride _ => .vrfModeOverride

/-- How many units a measure numbers. -/
def unitCount : Measure → Nat
  | thermochromicWindow _ => 0
  | condenserLoopOverride m => m.loops.length
  | comfortHalt m => m.zones.length
  | discretePackageSizing _ => 0
  | zoneAverageTemperature m => m.zones.length
  | curveResultOverride m => m.units.length
  | vrfModeOverride m => m.units.length

/-- How many numbers a batch sets aside for a measure; more than the largest number are never
    asked for. -/
def allocations (m : Measure) : Nat :=
  min m.unitCount Numbering.limit

/-- The objects of a measure, numbered from a given number on. -/
def script (m : Measure) (a : Numbering) : Script :=
  match m with
  | thermochromicWindow m => m.script
  | condenserLoopOverride m => m.script a
  | comfortHalt m => m.script a
  | discretePackageSizing m => m.script
  | zoneAverageTemperature m => m.script a
  | curveResultOverride m => m.script a
  | vrfModeOverride m => m.script a

/-- The remarks that building a measure makes. -/
def notices : Measure → List Notice
  | condenserLoopOverride m => m.notice?.toList
  | _ => []

/-- The model with the objects of a measure alone, and the numbering after it: one number is
    taken for each unit. -/
def build (m : Measure) (a : Numbering) : Except Fault (Model × Numbering) :=
  match (m.script a).run .empty with
  | .error fault => .error fault
  | .ok objects =>
    match a.advanceBy m.unitCount with
    | .error fault => .error (.program fault)
    | .ok next => .ok (objects, next)

end Measure

end BuildingControl
