/-
  BuildingControl.Project.Check

  What can be checked on a project file alone: its version, the form of its
  names and texts, that no name is declared twice, and that trends and `RUN`
  lines refer to what is declared.
-/
import BuildingControl.Checking
import BuildingControl.Project.Defect

namespace BuildingControl.Project

open Erl Model

/-! ## Names -/

/-- The names declared so far, each with what it stands for. -/
abbrev Names := List (String × NameClass)

/-- What a name stands for, in any spelling. -/
def Names.find? (names : Names) (name : String) : Option NameClass :=
  (List.find? (fun d => d.1 == Text.asciiUpper name) names).map Prod.snd

/-- A text that has to be a name. -/
def checkName (place : Place) (text : String) : Except Defect Unit :=
  match nameReason? text with
  | none => .ok ()
  | some reason => .error (.invalid place (.name text reason))

/-- A text that has to fit one field. -/
def checkField (place : Place) (text : String) : Except Defect Unit :=
  match fieldReason? text with
  | none => .ok ()
  | some reason => .error (.invalid place (.field text reason))

/-- The names with one more, which must be a name and new. -/
def declareName (names : Names) (cls : NameClass) (place : Place) (name : String) :
    Except Defect Names := do
  checkName place name
  if (names.find? name).isSome then throw (.duplicate name place)
  return (Text.asciiUpper name, cls) :: names

/-- The names after every entry of a section. -/
def declareEach (declare : Names → Nat → α → Except Defect Names) (names : Names) (i : Nat) :
    List α → Except Defect Names
  | [] => .ok names
  | x :: rest =>
    match declare names i x with
    | .error defect => .error defect
    | .ok next => declareEach declare next (i + 1) rest

/-- A check on every element of a list and its position. -/
def checkEach (check : Nat → α → Except Defect Unit) (xs : List α) : Except Defect Unit :=
  allOk (fun x => check x.2 x.1) xs.zipIdx

/-! ## Entries -/

/-- A sensor. -/
def declareSensor (names : Names) (i : Nat) (s : SensorEntry) : Except Defect Names := do
  let next ← declareName names .sensor (.field .sensors i "name") s.name
  checkField (.field .sensors i "key") s.key
  checkField (.field .sensors i "output_variable") s.output
  return next

/-- An actuator. -/
def declareActuator (names : Names) (i : Nat) (a : ActuatorEntry) : Except Defect Names := do
  let next ← declareName names .actuator (.field .actuators i "name") a.name
  checkField (.field .actuators i "component.name") a.component.name
  if !a.component.kind.supports a.control then
    throw (.notOffered (.field .actuators i "control") a.control a.component.kind)
  return next

/-- A global variable. -/
def declareGlobal (names : Names) (i : Nat) (name : String) : Except Defect Names :=
  declareName names .global (.entry .globals i) name

/-- An internal variable. -/
def declareInternal (names : Names) (i : Nat) (v : InternalEntry) : Except Defect Names := do
  let next ← declareName names .internal (.field .internals i "name") v.name
  checkField (.field .internals i "key") v.key
  checkField (.field .internals i "data_type") v.dataType
  return next

/-- Whether a trend may log what a name stands for. -/
def isLogged : NameClass → Bool
  | .sensor => true
  | .global => true
  | _ => false

/-- A trend variable, whose source has to be declared. -/
def declareTrend (names : Names) (i : Nat) (t : TrendEntry) : Except Defect Names := do
  let next ← declareName names .trend (.field .trends i "name") t.name
  if t.timesteps = 0 then throw (.invalid (.field .trends i "timesteps") .noTimestep)
  if !(next.find? t.source).any isLogged then
    throw (.missing t.source (.field .trends i "source"))
  return next

/-- The boundary of a row. -/
def checkBoundary (table i : Nat) (r : RuleText) : Except Defect Unit :=
  if r.boundary.isFinite then .ok ()
  else .error (.invalid (.boundary table i) (.notFinite r.boundary))

/-- A threshold table. -/
def declareTable (names : Names) (i : Nat) (t : TableEntry) : Except Defect Names := do
  let next ← declareName names .program (.field .tables i "name") t.name
  if t.rules.isEmpty then throw (.invalid (.field .tables i "rules") .noRules)
  checkEach (checkBoundary i) t.rules
  return next

/-- The calling manager of a schedule. -/
def checkSchedule (part : Section) (i : Nat) (s : Option Schedule) : Except Defect Unit :=
  match s.bind Schedule.manager with
  | some manager => checkField (.field part i "schedule.manager") manager
  | none => .ok ()

/-- What a program entry declares. -/
def ProgramEntry.cls (p : ProgramEntry) : NameClass :=
  if p.subroutine then .subroutine else .program

/-- A program or subroutine; subroutines have no schedule. -/
def declareProgram (names : Names) (i : Nat) (p : ProgramEntry) : Except Defect Names := do
  let next ← declareName names p.cls (.field .programs i "name") p.name
  if p.subroutine && p.schedule.isSome then
    throw (.scheduledSubroutine (.field .programs i "schedule"))
  return next

/-- A program line; what it runs has to be a subroutine of the project. -/
def checkLine (names : Names) (program i : Nat) : LineEntry → Except Defect Unit
  | .run subroutine =>
    if names.find? subroutine == some .subroutine then .ok ()
    else .error (.missing subroutine (.line program i))
  | _ => .ok ()

/-- A reported variable; reported names are told apart by their upper case. -/
def declareOutput (taken : List String) (i : Nat) (o : OutputEntry) :
    Except Defect (List String) := do
  if taken.contains (Text.upper o.name) then throw (.duplicate o.name (.whole .outputs))
  checkName (.field .outputs i "variable") o.source
  checkField (.field .outputs i "name") o.name
  checkField (.field .outputs i "units") (o.units.getD "")
  return Text.upper o.name :: taken

/-- Reported variables, after those whose names are taken. -/
def checkOutputs (taken : List String) (i : Nat) : List OutputEntry → Except Defect Unit
  | [] => .ok ()
  | o :: rest =>
    match declareOutput taken i o with
    | .error defect => .error defect
    | .ok next => checkOutputs next (i + 1) rest

/-! ## Projects -/

/-- The names a project declares. -/
def declareAll (p : Project) : Except Defect Names := do
  let names ← declareEach declareSensor [] 0 p.sensors
  let names ← declareEach declareActuator names 0 p.actuators
  let names ← declareEach declareGlobal names 0 p.globals
  let names ← declareEach declareInternal names 0 p.internals
  let names ← declareEach declareTrend names 0 p.trends
  let names ← declareEach declareTable names 0 p.tables
  checkEach (fun i t => checkSchedule .tables i t.schedule) p.tables
  checkEach (fun i q => checkSchedule .programs i q.schedule) p.programs
  declareEach declareProgram names 0 p.programs

/-- Whether a project file is sound. -/
def check (p : Project) : Except Defect Unit := do
  if latestVersion < p.version then throw (.laterVersion p.version)
  let names ← p.declareAll
  checkEach (fun i q => checkEach (checkLine names i) q.lines) p.programs
  checkOutputs [] 0 p.outputs

end BuildingControl.Project
