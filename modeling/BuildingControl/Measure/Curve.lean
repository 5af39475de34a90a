/-
  BuildingControl.Measure.Curve

  Capacity curves of heat pump coils, computed by a program.  The curve is
  biquadratic in the wet-bulb temperature at the coil and the dry-bulb
  temperature outside; above a threshold outside, other coefficients apply.  One
  program covers all units.
-/
import BuildingControl.Measure.Script

namespace BuildingControl.Measure

open Erl Model

/-- The coefficients of `a + b*x + c*x^2 + d*y + e*y^2 + f*x*y`. -/
structure Biquadratic where
  a : Float
  b : Float
  c : Float
  d : Float
  e : Float
  f : Float
  deriving BEq

/-- The coefficients in order. -/
def Biquadratic.toList (q : Biquadratic) : List Float := [q.a, q.b, q.c, q.d, q.e, q.f]

/-- A heat pump, the capacity curve of its coil, and the coefficients of that curve. -/
structure CurveUnit where
  heatPump : String
  curve : String
  coefficients : Biquadratic
  deriving BEq

/-- Capacity curves to be computed by a program. -/
structure Curve where
  units : List CurveUnit
  /-- The outdoor dry-bulb temperature above which the other coefficients apply. -/
  threshold : String
  alternate : Biquadratic
  program : String
  manager : String
  deriving BEq

namespace Curve

/-- The arguments that are not given. -/
def default : Curve where
  units := []
  threshold := "87.8 F"
  alternate :=
    ⟨0.942567793, -0.009543347, 0.000683770, -0.011042676, 0.000005249, -0.000009720⟩
  program := "CurveOverwriteMGR"
  manager := "EMSBasedCurveManager"

/-- The threshold in °C as the program states it. -/
def thresholdCelsius (c : Curve) : Except Fault Float :=
  match Quantity.readTemperature c.threshold with
  | .ok t => .ok (Number.roundTo t.celsius 6)
  | .error fault => .error (.quantity fault)

/-! ## Names -/

/-- The actuator of the curve of unit `n`. -/
def overwriteName (n : Nat) : String := s!"CurveOverwrite{n}"

/-- The value with the unit's own coefficients. -/
def previousName (n : Nat) : String := s!"CurveInput2_{n}"

/-- The value that the simulation computes for the curve. -/
def actualName (n : Nat) : String := s!"ActualCurve{n}"

/-- The pressure outside of unit `n`. -/
def pressureName (n : Nat) : String := s!"Pressure{n}"

/-- The dry-bulb temperature at the coil of unit `n`. -/
def inletName (n : Nat) : String := s!"CoilInletDBT{n}"

/-- The humidity ratio at the coil of unit `n`. -/
def humidityName (n : Nat) : String := s!"CoilInletW{n}"

/-- The temperature outside of unit `n`. -/
def outdoorName (n : Nat) : String := s!"OAT{n}"

/-- Which coefficients are meant. -/
inductive Source
  | own
  | alternate
  deriving DecidableEq

/-- The variable of coefficient `k` of unit `n`. -/
def coefficientName (source : Source) (n k : Nat) : String :=
  match source with
  | .own => s!"C{k}_{n}"
  | .alternate => s!"C{k}_a{n}"

/-- The variable with the value of the curve. -/
def resultName (n : Nat) : String := s!"CurveInput_{n}"

/-! ## Objects -/

/-- A coefficient has to be finite. -/
def checkCoefficients (q : Biquadratic) : Except Fault Unit :=
  (allOk (fun x => (Number.requireFinite "curve coefficient" x).map fun _ => ()) q.toList).mapError
    .number

/-- A reported variable and a request for it. -/
def report (name source : String) : Script :=
  Script.output name source .zoneTimestep none ++
  Script.request Script.everyKey name .hourly

/-- The objects of one unit. -/
def unitScript (c : Curve) (u : CurveUnit) (n : Nat) : Script :=
  let outside := u.heatPump ++ " OA Node"
  let mixed := u.heatPump ++ " Mixed Air Node"
  Script.actuator (overwriteName n) u.curve .curve "Curve Result" ++
  Script.global (previousName n) ++
  Script.sensor (actualName n) u.curve "Performance Curve Output Value" ++
  Script.sensor (pressureName n) outside "System Node Pressure" ++
  Script.sensor (inletName n) mixed "System Node Temperature" ++
  Script.sensor (humidityName n) mixed "System Node Humidity Ratio" ++
  Script.sensor (outdoorName n) outside "System Node Temperature" ++
  report s!"ERLCurveValue{n}" (actualName n) ++
  report s!"OldCurveValue{n}" (previousName n) ++
  report s!"NewCurveValue{n}" (overwriteName n) ++
  Script.require (checkCoefficients u.coefficients) ++
  Script.require (checkCoefficients c.alternate)

/-! ## The program -/

/-- The lines that set the six coefficients. -/
def setCoefficients (source : Source) (n : Nat) (q : Biquadratic) : Draft :=
  (q.toList.zipIdx 1).flatMap fun x => Draft.set (coefficientName source n x.2) (Number.format x.1)

/-- The lines that compute the curve from its coefficients. -/
def evaluate (source : Source) (n : Nat) : Draft :=
  let k := coefficientName source n
  let x := s!"IVOnea_{n}"
  let y := s!"IVTwo_{n}"
  Draft.set s!"LeftCurveInput_{n}"
    (k 1 ++ "+(" ++ k 2 ++ "*" ++ x ++ ")+(" ++ k 3 ++ "*" ++ x ++ "*" ++ x ++ ")") ++
  Draft.set s!"RightCurveInput_{n}"
    ("(" ++ k 4 ++ "*" ++ y ++ ")+(" ++ k 5 ++ "*" ++ y ++ "*" ++ y ++ ")+(" ++ k 6 ++
      s!"*IVThree_{n})") ++
  Draft.set (resultName n) s!"LeftCurveInput_{n} + RightCurveInput_{n}"

/-- The lines of one unit. -/
def unitBody (c : Curve) (threshold : Float) (u : CurveUnit) (n : Nat) : Draft :=
  Draft.set s!"TTmp_{n}" (inletName n) ++
  Draft.set s!"WTmp_{n}" (humidityName n) ++
  Draft.set s!"PTmp_{n}" (pressureName n) ++
  Draft.set s!"MyWB_{n}" s!"@TwbFnTdbWPb TTmp_{n} WTmp_{n} PTmp_{n}" ++
  Draft.set s!"IVOnea_{n}" s!"MyWB_{n}" ++
  Draft.set s!"IVTwo_{n}" (outdoorName n) ++
  Draft.set s!"IVThree_{n}" s!"IVOnea_{n}*IVTwo_{n}" ++
  setCoefficients .own n u.coefficients ++
  setCoefficients .alternate n c.alternate ++
  evaluate .own n ++
  Draft.set (previousName n) (resultName n) ++
  Draft.ifCompare (outdoorName n) .gt threshold ++
  evaluate .alternate n ++
  Draft.push .endIf ++
  Draft.set (overwriteName n) (resultName n)

/-- The program: the lines of each unit. -/
def body (c : Curve) (threshold : Float) (a : Numbering) : Draft :=
  (c.units.zipIdx a.next).flatMap fun u => c.unitBody threshold u.1 u.2

/-- The objects of the measure. -/
def script (c : Curve) (a : Numbering) : Script :=
  if c.units.isEmpty then [.error (.nothingToApply .curveResultOverride .coils)]
  else
    match c.thresholdCelsius with
    | .error fault => [.error fault]
    | .ok threshold =>
      Script.forEach a c.units c.unitScript ++
      Script.program c.program (c.body threshold a) ++
      Script.manager c.manager .afterPredictorBeforeHVACManagers c.program ++
      Script.request Script.everyKey "Site Outdoor Air Drybulb Temperature" .hourly

end Curve

end BuildingControl.Measure
