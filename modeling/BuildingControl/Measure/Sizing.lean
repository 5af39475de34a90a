/-
  BuildingControl.Measure.Sizing

  Air loops sized to packages that can be bought.  During system sizing the flow
  that was calculated for a loop is replaced by the smallest package that covers
  it.  One subroutine picks the package, through two globals; a flow above the
  largest package raises a warning.
-/
import BuildingControl.Measure.Script

namespace BuildingControl.Measure

open Erl Model

/-- Air loops to be sized to packages. -/
structure Sizing where
  airLoops : List String
  /-- The flows of the packages, smallest first, each with its unit. -/
  packageSizes : List String
  program : String
  manager : String
  deriving BEq

namespace Sizing

/-- The arguments that are not given. -/
def default : Sizing where
  airLoops := []
  packageSizes := ["0.56628", "0.75504", "0.9438", "1.13256", "1.4157", "1.60446", "1.8879"]
  program := "Resize_PSZ_To_Match_Product_Availability"
  manager := "Apply Discrete Package Sizes to Air System Sizing"

/-! ## Package sizes -/

/-- The flow of one package in m³/s; it is positive and above the one before it. -/
def readSize (previous : Option Float) (text : String) : Except Fault Float :=
  match Quantity.readVolumeFlow text with
  | .error fault => .error (.quantity fault)
  | .ok flow =>
    let size := Number.roundTo flow.cubicMetresPerSecond 6
    if size ≤ 0 then .error (.refused .discretePackageSizing (.sizeNotPositive text))
    else if previous.any (size ≤ ·) then
      .error (.refused .discretePackageSizing (.sizeNotLarger text))
    else .ok size

/-- The flows of packages in order, after the one before them. -/
def readSizes (previous : Option Float) : List String → Except Fault (List Float)
  | [] => .ok []
  | text :: rest =>
    match readSize previous text with
    | .error fault => .error fault
    | .ok size => (readSizes (some size) rest).map (size :: ·)

/-- The flows of the packages in m³/s. -/
def sizes (s : Sizing) : Except Fault (List Float) :=
  readSizes none s.packageSizes

/-! ## Objects -/

/-- The global that holds the flow of the chosen package. -/
def discreteFlow : String := "argDiscreteMainVdot"

/-- The global that holds the calculated flow. -/
def calculatedFlow : String := "argMainVdot"

/-- The subroutine that picks a package. -/
def select : String := "Select_Discrete_Nominal_Air_Flow"

/-- The packages as a threshold table over the calculated flow. -/
def selection (sizes : List Float) : TableText where
  subject := calculatedFlow
  comparison := .le
  rules := sizes.map fun size => ⟨size, discreteFlow, Number.format size⟩
  otherwise := some ⟨"dummy", "@SevereWarnEP 666.0"⟩

/-- The internal variable with the calculated flow of a loop. -/
def calculatedName (airLoop : String) : String := sanitize airLoop ++ "_CalcMainSupVdot"

/-- The actuator of the flow of a loop. -/
def actuatorName (airLoop : String) : String := sanitize airLoop ++ "MainSupVdotSet"

/-- The objects of one loop. -/
def loopScript (airLoop : String) : Script :=
  Script.internal (calculatedName airLoop) airLoop
    "Intermediate Air System Main Supply Volume Flow Rate" ++
  Script.actuator (actuatorName airLoop) airLoop .airSystemSizing "Main Supply Volume Flow Rate"

/-- The lines of one loop. -/
def loopBody (airLoop : String) : Draft :=
  Draft.set calculatedFlow (calculatedName airLoop) ++
  Draft.run select ++
  Draft.set (actuatorName airLoop) discreteFlow

/-- The objects of the measure. -/
def script (s : Sizing) : Script :=
  if s.airLoops.isEmpty then [.error (.nothingToApply .discretePackageSizing .airLoops)]
  else
    match s.sizes with
    | .error fault => [.error fault]
    | .ok sizes =>
      Script.global discreteFlow ++
      Script.global calculatedFlow ++
      Script.subroutine select (selection sizes).build ++
      s.airLoops.flatMap loopScript ++
      Script.program s.program (s.airLoops.flatMap loopBody) ++
      Script.manager s.manager .endOfSystemSizing s.program

end Sizing

end BuildingControl.Measure
