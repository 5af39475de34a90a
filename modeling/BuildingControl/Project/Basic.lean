/-
  BuildingControl.Project.Basic

  A project: the declarations, threshold tables, programs and measures of one
  file, as they were written down.  Nothing in it is checked yet.
-/
import BuildingControl.Measure.Basic

namespace BuildingControl.Project

open Erl Model

/-- A sensor in writing. -/
structure SensorEntry where
  name : String
  key : String
  output : String
  deriving BEq

/-- An actuator in writing. -/
structure ActuatorEntry where
  name : String
  component : Component
  control : String
  deriving BEq

/-- A trend variable in writing. -/
structure TrendEntry where
  name : String
  source : String
  timesteps : Nat
  deriving BEq

/-- An internal variable in writing. -/
structure InternalEntry where
  name : String
  key : String
  dataType : String
  deriving BEq

/-- A reported variable in writing. -/
structure OutputEntry where
  name : String
  source : String
  data : OutputData
  frequency : UpdateFrequency
  units : Option String
  deriving BEq

/-- When a program runs; without a manager of its own it joins the usual one of its calling
    point. -/
structure Schedule where
  callingPoint : CallingPoint
  manager : Option String
  deriving BEq

/-- A threshold table in writing. -/
structure TableEntry where
  name : String
  subject : String
  comparison : Comparison
  rules : List RuleText
  otherwise : ActionText
  schedule : Option Schedule
  deriving BEq

/-- The rows of an entry. -/
def TableEntry.table (t : TableEntry) : TableText :=
  ⟨t.subject, t.comparison, t.rules, some t.otherwise⟩

/-- A program line in writing. -/
inductive LineEntry
  | set (target value : String)
  | ifThen (condition : String)
  | elseIf (condition : String)
  | otherwise
  | endIf
  | run (subroutine : String)
  | leave
  deriving BEq

/-- A program or subroutine in writing. -/
structure ProgramEntry where
  name : String
  subroutine : Bool
  lines : List LineEntry
  schedule : Option Schedule
  deriving BEq

end BuildingControl.Project

namespace BuildingControl

open Project

/-- The contents of a project file. -/
structure Project where
  version : Nat
  name : String
  reporting : Model.Reporting
  sensors : List SensorEntry
  actuators : List ActuatorEntry
  globals : List String
  trends : List TrendEntry
  internals : List InternalEntry
  outputs : List OutputEntry
  tables : List TableEntry
  programs : List ProgramEntry
  measures : List Measure
  deriving BEq

/-- The version of project files that this library writes. -/
def Project.latestVersion : Nat := 1

end BuildingControl
