/-
  BuildingControl.Coding.Measure

  Measures as parts of a document: an object whose field `measure` names the
  kind, with the arguments of the measure beside it.  Arguments that are not
  given have their default.
-/
import BuildingControl.Coding.Component
import BuildingControl.Measure.Basic

namespace BuildingControl.Coding

open Document Document.Source BuildingControl.Measure Model

/-- Texts as a list. -/
def textsValue (texts : List String) : Value :=
  .list (texts.map .text)

/-- A list of texts. -/
def texts? [Source ν] (v : ν) : Option (List String) :=
  listOf text? v

/-! ## The parts of measures -/

/-- A window state as an object. -/
def windowStateValue (s : WindowState) : Value :=
  .object [("up_to_c", .real s.upTo), ("construction", .text s.construction)]

/-- A window state. -/
def windowState? [Source ν] (v : ν) : Option WindowState := do
  let r ← record? ["up_to_c", "construction"] v
  let upTo ← required r "up_to_c" real?
  let construction ← required r "construction" text?
  return ⟨upTo, construction⟩

/-- A condenser loop as an object. -/
def condenserLoopValue (l : CondenserLoop) : Value :=
  .object
    [("name", .text l.name), ("pump", .text l.pump), ("pump_speed", choiceValue l.pumpSpeed)]

/-- A condenser loop. -/
def condenserLoop? [Source ν] (v : ν) : Option CondenserLoop := do
  let r ← record? ["name", "pump", "pump_speed"] v
  let name ← required r "name" text?
  let pump ← required r "pump" text?
  let speed ← fallback r "pump_speed" .constant (choice? PumpSpeed)
  return ⟨name, pump, speed⟩

/-- Coefficients as a list. -/
def biquadraticValue (q : Biquadratic) : Value :=
  .list (q.toList.map .real)

/-- A list of six coefficients. -/
def biquadratic? [Source ν] (v : ν) : Option Biquadratic := do
  match ← listOf real? v with
  | [a, b, c, d, e, f] => return ⟨a, b, c, d, e, f⟩
  | _ => none

/-- A heat pump and its curve as an object. -/
def curveUnitValue (u : CurveUnit) : Value :=
  .object
    [("heat_pump", .text u.heatPump), ("curve", .text u.curve),
     ("coefficients", biquadraticValue u.coefficients)]

/-- A heat pump and its curve. -/
def curveUnit? [Source ν] (v : ν) : Option CurveUnit := do
  let r ← record? ["heat_pump", "curve", "coefficients"] v
  let heatPump ← required r "heat_pump" text?
  let curve ← required r "curve" text?
  let coefficients ← required r "coefficients" biquadratic?
  return ⟨heatPump, curve, coefficients⟩

/-- An outdoor unit as an object. -/
def vrfUnitValue (u : VrfUnit) : Value :=
  .object [("name", .text u.name), ("terminals", textsValue u.terminals)]

/-- An outdoor unit. -/
def vrfUnit? [Source ν] (v : ν) : Option VrfUnit := do
  let r ← record? ["name", "terminals"] v
  let name ← required r "name" text?
  let terminals ← fallback r "terminals" [] texts?
  return ⟨name, terminals⟩

/-! ## Arguments -/

/-- The arguments of a thermochromic window. -/
def thermochromicFields (m : Thermochromic) : List (String × Value) :=
  [("window", .text m.window), ("states", .list (m.states.map windowStateValue)),
   ("default_construction", .text m.defaultConstruction), ("calling_manager", .text m.manager)]

/-- A thermochromic window. -/
def thermochromic? [Source ν] (v : ν) : Option Thermochromic := do
  let d := Thermochromic.default
  let r ← record? ["window", "states", "default_construction", "calling_manager"] v
  let window ← fallback r "window" d.window text?
  let states ← fallback r "states" d.states (listOf windowState?)
  let construction ← fallback r "default_construction" d.defaultConstruction text?
  let manager ← fallback r "calling_manager" d.manager text?
  return ⟨window, states, construction, manager⟩

/-- The arguments of condenser loops. -/
def condenserFields (m : Condenser) : List (String × Value) :=
  [("loops", .list (m.loops.map condenserLoopValue)), ("threshold", .text m.threshold),
   ("program", .text m.program), ("calling_manager", .text m.manager)]

/-- Condenser loops. -/
def condenser? [Source ν] (v : ν) : Option Condenser := do
  let d := Condenser.default
  let r ← record? ["loops", "threshold", "program", "calling_manager"] v
  let loops ← fallback r "loops" d.loops (listOf condenserLoop?)
  let threshold ← fallback r "threshold" d.threshold text?
  let program ← fallback r "program" d.program text?
  let manager ← fallback r "calling_manager" d.manager text?
  return ⟨loops, threshold, program, manager⟩

/-- The arguments of a comfort watch. -/
def comfortFields (m : Comfort) : List (String × Value) :=
  [("zones", textsValue m.zones), ("min_pmv", .real m.minVote), ("max_pmv", .real m.maxVote),
   ("trend_hours", .real m.trendHours), ("timestep_minutes", .real m.timestepMinutes)]

/-- A comfort watch. -/
def comfort? [Source ν] (v : ν) : Option Comfort := do
  let d := Comfort.default
  let r ← record? ["zones", "min_pmv", "max_pmv", "trend_hours", "timestep_minutes"] v
  let zones ← fallback r "zones" d.zones texts?
  let low ← fallback r "min_pmv" d.minVote real?
  let high ← fallback r "max_pmv" d.maxVote real?
  let hours ← fallback r "trend_hours" d.trendHours real?
  let minutes ← fallback r "timestep_minutes" d.timestepMinutes real?
  return ⟨zones, low, high, hours, minutes⟩

/-- The arguments of air loops. -/
def sizingFields (m : Sizing) : List (String × Value) :=
  [("air_loops", textsValue m.airLoops), ("package_sizes", textsValue m.packageSizes),
   ("program", .text m.program), ("calling_manager", .text m.manager)]

/-- Air loops. -/
def sizing? [Source ν] (v : ν) : Option Sizing := do
  let d := Sizing.default
  let r ← record? ["air_loops", "package_sizes", "program", "calling_manager"] v
  let airLoops ← fallback r "air_loops" d.airLoops texts?
  let sizes ← fallback r "package_sizes" d.packageSizes texts?
  let program ← fallback r "program" d.program text?
  let manager ← fallback r "calling_manager" d.manager text?
  return ⟨airLoops, sizes, program, manager⟩

/-- The arguments of averaged zones. -/
def zoneAverageFields (m : ZoneAverage) : List (String × Value) :=
  [("zones", textsValue m.zones), ("program", .text m.program),
   ("calling_manager", .text m.manager), ("average", .text m.average),
   ("output_name", .text m.outputName)]

/-- Averaged zones. -/
def zoneAverage? [Source ν] (v : ν) : Option ZoneAverage := do
  let d := ZoneAverage.default
  let r ← record? ["zones", "program", "calling_manager", "average", "output_name"] v
  let zones ← fallback r "zones" d.zones texts?
  let program ← fallback r "program" d.program text?
  let manager ← fallback r "calling_manager" d.manager text?
  let average ← fallback r "average" d.average text?
  let outputName ← fallback r "output_name" d.outputName text?
  return ⟨zones, program, manager, average, outputName⟩

/-- The arguments of computed curves. -/
def curveFields (m : Curve) : List (String × Value) :=
  [("units", .list (m.units.map curveUnitValue)), ("threshold", .text m.threshold),
   ("alternate", biquadraticValue m.alternate), ("program", .text m.program),
   ("calling_manager", .text m.manager)]

/-- Computed curves. -/
def curve? [Source ν] (v : ν) : Option Curve := do
  let d := Curve.default
  let r ← record? ["units", "threshold", "alternate", "program", "calling_manager"] v
  let units ← fallback r "units" d.units (listOf curveUnit?)
  let threshold ← fallback r "threshold" d.threshold text?
  let alternate ← fallback r "alternate" d.alternate biquadratic?
  let program ← fallback r "program" d.program text?
  let manager ← fallback r "calling_manager" d.manager text?
  return ⟨units, threshold, alternate, program, manager⟩

/-- The arguments of outdoor units. -/
def vrfFields (m : Vrf) : List (String × Value) :=
  [("units", .list (m.units.map vrfUnitValue)), ("part_load_ratio", .real m.partLoadRatio),
   ("init_program", .text m.initProgram), ("init_calling_manager", .text m.initManager),
   ("program", .text m.program), ("calling_manager", .text m.manager)]

/-- Outdoor units. -/
def vrf? [Source ν] (v : ν) : Option Vrf := do
  let d := Vrf.default
  let r ← record? ["units", "part_load_ratio", "init_program", "init_calling_manager", "program",
    "calling_manager"] v
  let units ← fallback r "units" d.units (listOf vrfUnit?)
  let ratio ← fallback r "part_load_ratio" d.partLoadRatio real?
  let initProgram ← fallback r "init_program" d.initProgram text?
  let initManager ← fallback r "init_calling_manager" d.initManager text?
  let program ← fallback r "program" d.program text?
  let manager ← fallback r "calling_manager" d.manager text?
  return ⟨units, ratio, initProgram, initManager, program, manager⟩

/-! ## Measures -/

/-- The tag of a kind of measure. -/
def measureTag : Kind → String
  | .thermochromicWindow => "thermochromic_window"
  | .condenserLoopOverride => "condenser_loop_override"
  | .comfortHalt => "comfort_halt"
  | .discretePackageSizing => "discrete_package_sizing"
  | .zoneAverageTemperature => "zone_average_temperature"
  | .curveResultOverride => "curve_result_override"
  | .vrfModeOverride => "vrf_mode_override"

/-- The arguments of a measure. -/
def measureFields : Measure → List (String × Value)
  | .thermochromicWindow m => thermochromicFields m
  | .condenserLoopOverride m => condenserFields m
  | .comfortHalt m => comfortFields m
  | .discretePackageSizing m => sizingFields m
  | .zoneAverageTemperature m => zoneAverageFields m
  | .curveResultOverride m => curveFields m
  | .vrfModeOverride m => vrfFields m

/-- A measure as an object. -/
def measureValue (m : Measure) : Value :=
  .object (("measure", .text (measureTag m.kind)) :: measureFields m)

/-- The measure with this tag. -/
def measureOfTag? (tag : String) (rest : Content) : Option Measure :=
  match tag with
  | "thermochromic_window" => (thermochromic? rest).map .thermochromicWindow
  | "condenser_loop_override" => (condenser? rest).map .condenserLoopOverride
  | "comfort_halt" => (comfort? rest).map .comfortHalt
  | "discrete_package_sizing" => (sizing? rest).map .discretePackageSizing
  | "zone_average_temperature" => (zoneAverage? rest).map .zoneAverageTemperature
  | "curve_result_override" => (curve? rest).map .curveResultOverride
  | "vrf_mode_override" => (vrf? rest).map .vrfModeOverride
  | _ => none

/-- A measure. -/
def measure? [TaggedSource ν] (v : ν) : Option Measure :=
  (TaggedSource.tagged? "measure" v).bind fun t => measureOfTag? t.1 t.2

end BuildingControl.Coding
