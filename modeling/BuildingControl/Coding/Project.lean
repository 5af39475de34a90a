/-
  BuildingControl.Coding.Project

  Projects as documents.
-/
import BuildingControl.Coding.Measure
import BuildingControl.Project.Basic

namespace BuildingControl.Coding

open Document Document.Source Erl Model Project

/-- A field that is written only if it has a value. -/
def optionField (name : String) (value : α → Value) : Option α → List (String × Value)
  | some a => [(name, value a)]
  | none => []

/-! ## Declarations -/

/-- A sensor as an object. -/
def sensorValue (s : SensorEntry) : Value :=
  .object [("name", .text s.name), ("key", .text s.key), ("output_variable", .text s.output)]

/-- A sensor. -/
def sensor? [Source ν] (v : ν) : Option SensorEntry := do
  let r ← record? ["name", "key", "output_variable"] v
  let name ← required r "name" text?
  let key ← fallback r "key" "" text?
  let output ← required r "output_variable" text?
  return ⟨name, key, output⟩

/-- An actuator as an object. -/
def actuatorValue (a : ActuatorEntry) : Value :=
  .object
    [("name", .text a.name), ("component", componentValue a.component),
     ("control", .text a.control)]

/-- An actuator. -/
def actuator? [TaggedSource ν] (v : ν) : Option ActuatorEntry := do
  let r ← record? ["name", "component", "control"] v
  let name ← required r "name" text?
  let component ← required r "component" component?
  let control ← required r "control" text?
  return ⟨name, component, control⟩

/-- A trend variable as an object. -/
def trendValue (t : TrendEntry) : Value :=
  .object
    [("name", .text t.name), ("source", .text t.source), ("timesteps", .int t.timesteps)]

/-- A trend variable. -/
def trend? [Source ν] (v : ν) : Option TrendEntry := do
  let r ← record? ["name", "source", "timesteps"] v
  let name ← required r "name" text?
  let source ← required r "source" text?
  let timesteps ← required r "timesteps" count?
  return ⟨name, source, timesteps⟩

/-- An internal variable as an object. -/
def internalValue (i : InternalEntry) : Value :=
  .object [("name", .text i.name), ("key", .text i.key), ("data_type", .text i.dataType)]

/-- An internal variable. -/
def internal? [Source ν] (v : ν) : Option InternalEntry := do
  let r ← record? ["name", "key", "data_type"] v
  let name ← required r "name" text?
  let key ← fallback r "key" "" text?
  let dataType ← required r "data_type" text?
  return ⟨name, key, dataType⟩

/-- A reported variable as an object. -/
def outputValue (o : OutputEntry) : Value :=
  .object ([("name", .text o.name), ("variable", .text o.source), ("data", choiceValue o.data),
    ("frequency", choiceValue o.frequency)] ++ optionField "units" .text o.units)

/-- A reported variable. -/
def output? [Source ν] (v : ν) : Option OutputEntry := do
  let r ← record? ["name", "variable", "data", "frequency", "units"] v
  let name ← required r "name" text?
  let source ← required r "variable" text?
  let data ← fallback r "data" .averaged (choice? OutputData)
  let frequency ← fallback r "frequency" .zoneTimestep (choice? UpdateFrequency)
  let units ← optional r "units" text?
  return ⟨name, source, data, frequency, units⟩

/-! ## Programs -/

/-- A schedule as an object. -/
def scheduleValue (s : Schedule) : Value :=
  .object (("calling_point", choiceValue s.callingPoint) ::
    optionField "manager" .text s.manager)

/-- A schedule. -/
def schedule? [Source ν] (v : ν) : Option Schedule := do
  let r ← record? ["calling_point", "manager"] v
  let point ← required r "calling_point" callingPoint?
  let manager ← optional r "manager" text?
  return ⟨point, manager⟩

/-- A row as an object. -/
def ruleValue (r : RuleText) : Value :=
  .object
    [("boundary", .real r.boundary), ("variable", .text r.target), ("expression", .text r.value)]

/-- A row. -/
def rule? [Source ν] (v : ν) : Option RuleText := do
  let r ← record? ["boundary", "variable", "expression"] v
  let boundary ← required r "boundary" real?
  let target ← required r "variable" text?
  let value ← required r "expression" text?
  return ⟨boundary, target, value⟩

/-- An action as an object. -/
def actionValue (a : ActionText) : Value :=
  .object [("variable", .text a.target), ("expression", .text a.value)]

/-- An action. -/
def action? [Source ν] (v : ν) : Option ActionText := do
  let r ← record? ["variable", "expression"] v
  let target ← required r "variable" text?
  let value ← required r "expression" text?
  return ⟨target, value⟩

/-- A threshold table as an object. -/
def tableValue (t : TableEntry) : Value :=
  .object ([("name", .text t.name), ("comparison_variable", .text t.subject),
    ("comparison", choiceValue t.comparison), ("rules", .list (t.rules.map ruleValue)),
    ("default", actionValue t.otherwise)] ++ optionField "schedule" scheduleValue t.schedule)

/-- A threshold table. -/
def table? [Source ν] (v : ν) : Option TableEntry := do
  let r ← record? ["name", "comparison_variable", "comparison", "rules", "default", "schedule"] v
  let name ← required r "name" text?
  let subject ← required r "comparison_variable" text?
  let comparison ← fallback r "comparison" .le (choice? Comparison)
  let rules ← required r "rules" (listOf rule?)
  let otherwise ← required r "default" action?
  let schedule ← optional r "schedule" schedule?
  return ⟨name, subject, comparison, rules, otherwise, schedule⟩

/-- The tag of a program line. -/
def lineTag : LineEntry → String
  | .set _ _ => "set"
  | .ifThen _ => "if"
  | .elseIf _ => "else_if"
  | .otherwise => "else"
  | .endIf => "end_if"
  | .run _ => "run"
  | .leave => "return"

/-- What a program line holds beside its tag. -/
def lineFields : LineEntry → List (String × Value)
  | .set target value => [("target", .text target), ("expr", .text value)]
  | .ifThen condition => [("condition", .text condition)]
  | .elseIf condition => [("condition", .text condition)]
  | .run subroutine => [("subroutine", .text subroutine)]
  | _ => []

/-- A program line as an object. -/
def lineValue (l : LineEntry) : Value :=
  .object (("op", .text (lineTag l)) :: lineFields l)

/-- The only field of a record. -/
def onlyText? [Source ν] (name : String) (v : ν) : Option String := do
  required (← record? [name] v) name text?

/-- The program line with this tag. -/
def lineOfTag? (tag : String) (rest : Content) : Option LineEntry :=
  match tag with
  | "set" => do
    let r ← record? ["target", "expr"] rest
    let target ← required r "target" text?
    let value ← required r "expr" text?
    return .set target value
  | "if" => (onlyText? "condition" rest).map .ifThen
  | "else_if" => (onlyText? "condition" rest).map .elseIf
  | "else" => some .otherwise
  | "end_if" => some .endIf
  | "run" => (onlyText? "subroutine" rest).map .run
  | "return" => some .leave
  | _ => none

/-- A program line. -/
def line? [TaggedSource ν] (v : ν) : Option LineEntry :=
  (TaggedSource.tagged? "op" v).bind fun t => lineOfTag? t.1 t.2

/-- A program as an object. -/
def programValue (p : ProgramEntry) : Value :=
  .object ([("name", .text p.name), ("subroutine", .bool p.subroutine),
    ("lines", .list (p.lines.map lineValue))] ++ optionField "schedule" scheduleValue p.schedule)

/-- A program. -/
def program? [TaggedSource ν] (v : ν) : Option ProgramEntry := do
  let r ← record? ["name", "subroutine", "lines", "schedule"] v
  let name ← required r "name" text?
  let subroutine ← fallback r "subroutine" false flag?
  let lines ← required r "lines" (listOf line?)
  let schedule ← optional r "schedule" schedule?
  return ⟨name, subroutine, lines, schedule⟩

/-! ## Projects -/

/-- A project as a document. -/
def projectValue (p : Project) : Value :=
  .object
    [("version", .int p.version), ("name", .text p.name), ("output", reportingValue p.reporting),
     ("sensors", .list (p.sensors.map sensorValue)),
     ("actuators", .list (p.actuators.map actuatorValue)),
     ("globals", textsValue p.globals),
     ("trends", .list (p.trends.map trendValue)),
     ("internal_variables", .list (p.internals.map internalValue)),
     ("output_variables", .list (p.outputs.map outputValue)),
     ("rule_programs", .list (p.tables.map tableValue)),
     ("programs", .list (p.programs.map programValue)),
     ("measures", .list (p.measures.map measureValue))]

/-- The fields of a project. -/
def projectFields : List String :=
  ["version", "name", "output", "sensors", "actuators", "globals", "trends", "internal_variables",
   "output_variables", "rule_programs", "programs", "measures"]

/-- A project; what is not there is empty, version and name aside. -/
def project? [TaggedSource ν] (v : ν) : Option Project := do
  let r ← record? projectFields v
  let version ← required r "version" count?
  let name ← required r "name" text?
  let reporting ← fallback r "output" .silent reporting?
  let sensors ← fallback r "sensors" [] (listOf sensor?)
  let actuators ← fallback r "actuators" [] (listOf actuator?)
  let globals ← fallback r "globals" [] texts?
  let trends ← fallback r "trends" [] (listOf trend?)
  let internals ← fallback r "internal_variables" [] (listOf internal?)
  let outputs ← fallback r "output_variables" [] (listOf output?)
  let tables ← fallback r "rule_programs" [] (listOf table?)
  let programs ← fallback r "programs" [] (listOf program?)
  let measures ← fallback r "measures" [] (listOf measure?)
  return ⟨version, name, reporting, sensors, actuators, globals, trends, internals, outputs,
    tables, programs, measures⟩

end BuildingControl.Coding
