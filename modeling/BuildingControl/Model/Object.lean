/-
  BuildingControl.Model.Object

  The objects that bind control programs to a simulation: what programs read,
  what they act on, what they keep, when they run and what is reported.
  Variables are `Name`s; names of the building stay plain text, for they may
  hold blanks.
-/
import BuildingControl.Erl.Code
import BuildingControl.Model.Component

namespace BuildingControl.Model

open Erl

/-! ## Variables -/

/-- A reading of a simulation output. -/
structure Sensor where
  name : Name
  /-- A zone, a surface or `Environment`; empty for meters. -/
  key : String
  output : String
  deriving DecidableEq

/-- A control point that programs override. -/
structure Actuator where
  name : Name
  component : String
  componentType : String
  control : String
  deriving DecidableEq

/-- The actuator of a control that the component's kind offers. -/
def Actuator.ofComponent (name : Name) (component : Component) (control : String) :
    Except Fault Actuator :=
  let kind := component.kind
  match kind.actuatorType?, kind.control? control with
  | some type, some spelling => .ok ⟨name, component.name, type, spelling⟩
  | type?, _ => .error (.unsupportedControl (type?.getD kind.label) control)

/-- A rolling log of a variable. -/
structure Trend where
  name : Name
  source : Name
  timesteps : Nat
  deriving DecidableEq

/-- A reading of a value that the simulation fixes beforehand, such as a size or an area. -/
structure InternalVariable where
  name : Name
  key : String
  dataType : String
  deriving DecidableEq

/-- A handle on a construction, to be assigned to a `Construction State` actuator. -/
structure ConstructionIndex where
  name : Name
  construction : String
  deriving DecidableEq

/-! ## Reports -/

/-- How a reported variable is combined over a step. -/
inductive OutputData
  | averaged
  | summed
  deriving DecidableEq

/-- The step a reported variable is updated at. -/
inductive UpdateFrequency
  | zoneTimestep
  | systemTimestep
  deriving DecidableEq

/-- A program variable that is reported under a name of its own. -/
structure OutputVariable where
  name : String
  source : Name
  data : OutputData
  frequency : UpdateFrequency
  units : Option String
  deriving DecidableEq

/-- How often a requested variable is written to the results. -/
inductive ReportingFrequency
  | detailed
  | timestep
  | hourly
  | daily
  | monthly
  | runPeriod
  deriving DecidableEq

/-- A request to write a variable to the results; without one it is computed and dropped. -/
structure OutputRequest where
  /-- A key, or `*` for every key. -/
  key : String
  variableName : String
  frequency : ReportingFrequency
  deriving DecidableEq

/-- Whether two requests ask for the same, the case of letters aside. -/
def OutputRequest.sameAs (a b : OutputRequest) : Bool :=
  a.frequency == b.frequency && Text.sameLetters a.key b.key
    && Text.sameLetters a.variableName b.variableName

/-! ## Programs -/

/-- A named program or subroutine. -/
structure Program where
  name : Name
  body : Code

/-- The phases of a timestep at which programs can run. -/
inductive CallingPoint
  | beginNewEnvironment
  | afterNewEnvironmentWarmUpIsComplete
  | beginZoneTimestepBeforeInitHeatBalance
  | beginZoneTimestepAfterInitHeatBalance
  | beginTimestepBeforePredictor
  | beginZoneTimestepBeforeSetCurrentWeather
  | afterPredictorBeforeHVACManagers
  | afterPredictorAfterHVACManagers
  | insideHVACSystemIterationLoop
  | endOfZoneTimestepBeforeZoneReporting
  | endOfZoneTimestepAfterZoneReporting
  | endOfSystemTimestepBeforeHVACReporting
  | endOfSystemTimestepAfterHVACReporting
  | endOfZoneSizing
  | endOfSystemSizing
  | afterComponentInputReadIn
  | userDefinedComponentModel
  | unitarySystemSizing
  deriving DecidableEq

/-- A list of programs that run in order at one calling point. -/
structure CallingManager where
  name : String
  callingPoint : CallingPoint
  programs : List Name
  deriving DecidableEq

/-! ## Reporting settings -/

/-- How the available actuators or internal variables are listed. -/
inductive DictionaryReporting
  | none
  | notByUniqueKeyNames
  | verbose
  deriving DecidableEq

/-- How much of a program's run is traced. -/
inductive DebugLevel
  | none
  | errorsOnly
  | verbose
  deriving DecidableEq

/-- What a simulation reports about its control programs. -/
structure Reporting where
  actuatorAvailability : DictionaryReporting
  internalVariableAvailability : DictionaryReporting
  debugLevel : DebugLevel
  deriving DecidableEq

/-- Nothing is reported. -/
def Reporting.silent : Reporting := ⟨.none, .none, .none⟩

end BuildingControl.Model
