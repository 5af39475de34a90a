/-
  BuildingControl.Measure.Script

  What the measures share.  A measure is a script: the objects it adds to a
  model, in order, with a fault in the place where one arises.  Running the
  script stops at the first fault, so a measure adds all of its objects or none.
-/
import BuildingControl.Erl.Numbering
import BuildingControl.Erl.RuleTable
import BuildingControl.Model.Merge
import BuildingControl.Quantity

namespace BuildingControl.Measure

open Erl Model

/-! ## Faults -/

/-- The measures. -/
inductive Kind
  | thermochromicWindow
  | condenserLoopOverride
  | comfortHalt
  | discretePackageSizing
  | zoneAverageTemperature
  | curveResultOverride
  | vrfModeOverride
  deriving DecidableEq

/-- The name of a measure. -/
def Kind.title : Kind → String
  | .thermochromicWindow => "thermochromic window"
  | .condenserLoopOverride => "condenser loop override"
  | .comfortHalt => "comfort halt"
  | .discretePackageSizing => "discrete package sizing"
  | .zoneAverageTemperature => "zone average temperature"
  | .curveResultOverride => "curve result override"
  | .vrfModeOverride => "vrf mode override"

/-- What a measure needs and was not given. -/
inductive Shortage
  | condenserLoops
  | zones
  | airLoops
  | coils
  | outdoorUnits
  | terminals
  deriving DecidableEq

/-- The wording of a shortage. -/
def Shortage.text : Shortage → String
  | .condenserLoops => "no condenser loops selected"
  | .zones => "no thermal zones selected"
  | .airLoops => "no air loops selected"
  | .coils => "no heat pump DX coils selected"
  | .outdoorUnits => "no VRF outdoor units selected"
  | .terminals => "selected VRF outdoor units have no terminal units"

/-- Why an argument of a measure is refused. -/
inductive Refusal
  | emptyWindow
  | sharedHandle (first second handle : String)
  | timestepNotPositive
  | noWholeTimestep (hours minutes : Float)
  | boundsCrossed (low high : Float)
  | sizeNotPositive (text : String)
  | sizeNotLarger (text : String)
  | partLoadRatio (value : Float)

/-- The wording of a refusal. -/
def Refusal.text : Refusal → String
  | .emptyWindow => "window name is empty"
  | .sharedHandle first second handle =>
    s!"constructions '{first}' and '{second}' both map to {handle}"
  | .timestepNotPositive => "timestep must be positive"
  | .noWholeTimestep hours minutes =>
    s!"a {Number.format hours} h window holds no whole {Number.format minutes} min timestep"
  | .boundsCrossed low high =>
    s!"minimum PMV threshold {Number.format low} is greater than maximum {Number.format high}"
  | .sizeNotPositive text => s!"package size '{text}' must be positive"
  | .sizeNotLarger text => s!"package size '{text}' is not larger than the previous one"
  | .partLoadRatio value =>
    s!"part load ratio {Number.inMessage value} must be greater than 0 and at most 1"

/-- What is wrong with a measure. -/
inductive Fault
  | refused (kind : Kind) (refusal : Refusal)
  | nothingToApply (kind : Kind) (shortage : Shortage)
  | program (fault : Erl.Fault)
  | quantity (fault : Quantity.Fault)
  | number (fault : Number.NonFinite)

/-- The wording of a fault. -/
def Fault.message : Fault → String
  | .refused kind refusal => s!"Invalid argument for {kind.title}: {refusal.text}"
  | .nothingToApply kind shortage => s!"{kind.title} has nothing to apply: {shortage.text}"
  | .program fault => fault.message
  | .quantity fault => fault.message
  | .number fault => fault.message

/-! ## Scripts -/

/-- The objects a measure adds, with a fault where one arises. -/
abbrev Script := List (Except Fault Declaration)

namespace Script

/-- A single object. -/
def one (d : Except Erl.Fault Declaration) : Script := [d.mapError .program]

/-- No object, but a fault if the check fails. -/
def require (check : Except Fault α) : Script :=
  match check with
  | .ok _ => []
  | .error fault => [.error fault]

/-- The model with the objects of a script added. -/
def run (m : Model) : Script → Except Fault Model
  | [] => .ok m
  | .error fault :: _ => .error fault
  | .ok d :: rest =>
    match m.declare d with
    | .ok next => run next rest
    | .error fault => .error (.program fault)

/-- One part for every unit, each with the next number; a fault where the numbers run out. -/
def forEach (a : Numbering) (units : List α) (part : α → Nat → Script) : Script :=
  match units with
  | [] => []
  | x :: rest =>
    match a.advance with
    | .ok (n, b) => part x n ++ forEach b rest part
    | .error fault => [.error (.program fault)]

/-! ### Objects by the spelling of their names -/

/-- A sensor. -/
def sensor (name key output : String) : Script :=
  one (do return .sensor ⟨← Name.ofText? name, key, output⟩)

/-- An actuator of a component. -/
def actuator (name component : String) (kind : ComponentKind) (control : String) : Script :=
  one (do return .actuator (← Actuator.ofComponent (← Name.ofText? name) ⟨component, kind⟩ control))

/-- A global variable. -/
def global (name : String) : Script :=
  one (do return .global (← Name.ofText? name))

/-- A trend variable. -/
def trend (name source : String) (timesteps : Nat) : Script :=
  one (do return .trend ⟨← Name.ofText? name, ← Name.ofText? source, timesteps⟩)

/-- An internal variable. -/
def internal (name key dataType : String) : Script :=
  one (do return .internal ⟨← Name.ofText? name, key, dataType⟩)

/-- A program. -/
def program (name : String) (body : Draft) : Script :=
  one (do return .program ⟨← Name.ofText? name, ← body.build⟩)

/-- A subroutine. -/
def subroutine (name : String) (body : Except Erl.Fault Code) : Script :=
  one (do return .subroutine ⟨← Name.ofText? name, ← body⟩)

/-- A calling manager that runs a single program. -/
def manager (name : String) (point : CallingPoint) (program : String) : Script :=
  one (do return .manager ⟨name, point, [← Name.ofText? program]⟩)

/-- A reported variable. -/
def output (name source : String) (frequency : UpdateFrequency) (units : Option String) : Script :=
  one (do return .output ⟨name, ← Name.ofText? source, .averaged, frequency, units⟩)

/-- A request for a variable. -/
def request (key variableName : String) (frequency : ReportingFrequency) : Script :=
  one (.ok (.request ⟨key, variableName, frequency⟩))

/-- The key of a request for every key. -/
def everyKey : String := "*"

end Script

end BuildingControl.Measure
