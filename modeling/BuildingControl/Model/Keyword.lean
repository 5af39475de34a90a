/-
  BuildingControl.Model.Keyword

  The words that input files use for the choices of a model.  A choice is a type
  with finitely many values and one word for each.
-/
import BuildingControl.Model.Object

namespace BuildingControl.Model

open Erl

/-- A type whose values are written as words. -/
class Keyword (α : Type) where
  /-- Every value. -/
  values : List α
  /-- The word of a value. -/
  word : α → String

export Keyword (word)

/-- The value with exactly this word. -/
def Keyword.ofWord? (α : Type) [Keyword α] (text : String) : Option α :=
  (Keyword.values (α := α)).find? fun a => Keyword.word a == text

instance : Keyword Comparison where
  values := Comparison.all
  word := Comparison.symbol

instance : Keyword PumpSpeed where
  values := [.constant, .variable]
  word
    | .constant => "constant"
    | .variable => "variable"

instance : Keyword ScheduleForm where
  values := [.compact, .constant, .year]
  word
    | .compact => "compact"
    | .constant => "constant"
    | .year => "year"

instance : Keyword OutputData where
  values := [.averaged, .summed]
  word
    | .averaged => "Averaged"
    | .summed => "Summed"

instance : Keyword UpdateFrequency where
  values := [.zoneTimestep, .systemTimestep]
  word
    | .zoneTimestep => "ZoneTimestep"
    | .systemTimestep => "SystemTimestep"

instance : Keyword ReportingFrequency where
  values := [.detailed, .timestep, .hourly, .daily, .monthly, .runPeriod]
  word
    | .detailed => "Detailed"
    | .timestep => "Timestep"
    | .hourly => "Hourly"
    | .daily => "Daily"
    | .monthly => "Monthly"
    | .runPeriod => "RunPeriod"

instance : Keyword DictionaryReporting where
  values := [.none, .notByUniqueKeyNames, .verbose]
  word
    | .none => "None"
    | .notByUniqueKeyNames => "NotByUniqueKeyNames"
    | .verbose => "Verbose"

instance : Keyword DebugLevel where
  values := [.none, .errorsOnly, .verbose]
  word
    | .none => "None"
    | .errorsOnly => "ErrorsOnly"
    | .verbose => "Verbose"

instance : Keyword CallingPoint where
  values :=
    [.beginNewEnvironment, .afterNewEnvironmentWarmUpIsComplete,
     .beginZoneTimestepBeforeInitHeatBalance, .beginZoneTimestepAfterInitHeatBalance,
     .beginTimestepBeforePredictor, .beginZoneTimestepBeforeSetCurrentWeather,
     .afterPredictorBeforeHVACManagers, .afterPredictorAfterHVACManagers,
     .insideHVACSystemIterationLoop, .endOfZoneTimestepBeforeZoneReporting,
     .endOfZoneTimestepAfterZoneReporting, .endOfSystemTimestepBeforeHVACReporting,
     .endOfSystemTimestepAfterHVACReporting, .endOfZoneSizing, .endOfSystemSizing,
     .afterComponentInputReadIn, .userDefinedComponentModel, .unitarySystemSizing]
  word
    | .beginNewEnvironment => "BeginNewEnvironment"
    | .afterNewEnvironmentWarmUpIsComplete => "AfterNewEnvironmentWarmUpIsComplete"
    | .beginZoneTimestepBeforeInitHeatBalance => "BeginZoneTimestepBeforeInitHeatBalance"
    | .beginZoneTimestepAfterInitHeatBalance => "BeginZoneTimestepAfterInitHeatBalance"
    | .beginTimestepBeforePredictor => "BeginTimestepBeforePredictor"
    | .beginZoneTimestepBeforeSetCurrentWeather => "BeginZoneTimestepBeforeSetCurrentWeather"
    | .afterPredictorBeforeHVACManagers => "AfterPredictorBeforeHVACManagers"
    | .afterPredictorAfterHVACManagers => "AfterPredictorAfterHVACManagers"
    | .insideHVACSystemIterationLoop => "InsideHVACSystemIterationLoop"
    | .endOfZoneTimestepBeforeZoneReporting => "EndOfZoneTimestepBeforeZoneReporting"
    | .endOfZoneTimestepAfterZoneReporting => "EndOfZoneTimestepAfterZoneReporting"
    | .endOfSystemTimestepBeforeHVACReporting => "EndOfSystemTimestepBeforeHVACReporting"
    | .endOfSystemTimestepAfterHVACReporting => "EndOfSystemTimestepAfterHVACReporting"
    | .endOfZoneSizing => "EndOfZoneSizing"
    | .endOfSystemSizing => "EndOfSystemSizing"
    | .afterComponentInputReadIn => "AfterComponentInputReadIn"
    | .userDefinedComponentModel => "UserDefinedComponentModel"
    | .unitarySystemSizing => "UnitarySystemSizing"

/-- The calling point with this word; case and blanks around it do not matter. -/
def CallingPoint.ofText? (text : String) : Except Fault CallingPoint :=
  match (Keyword.values : List CallingPoint).find? fun p =>
      Text.sameLetters (word p) (Text.trim text) with
  | some p => .ok p
  | none => .error (.argument .callingPoint)

end BuildingControl.Model
