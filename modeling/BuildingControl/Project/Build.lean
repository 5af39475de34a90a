/-
  BuildingControl.Project.Build

  The model that a project describes: its declarations, then its threshold
  tables and programs in file order, then the calling managers that run them,
  then its measures as one batch, then its reported variables.  The model is
  checked once it is complete.
-/
import BuildingControl.Measure.Batch
import BuildingControl.Model.Check
import BuildingControl.Project.Check
import BuildingControl.Project.Fault

namespace BuildingControl.Project

open Erl Model

/-! ## Declarations -/

/-- The sensor of an entry. -/
def SensorEntry.declaration (s : SensorEntry) : Except Erl.Fault Declaration := do
  return .sensor ⟨← Name.ofText? s.name, s.key, s.output⟩

/-- The actuator of an entry. -/
def ActuatorEntry.declaration (a : ActuatorEntry) : Except Erl.Fault Declaration := do
  let name ← Name.ofText? a.name
  return .actuator (← Actuator.ofComponent name a.component a.control)

/-- The global variable with this spelling. -/
def globalDeclaration (name : String) : Except Erl.Fault Declaration := do
  return .global (← Name.ofText? name)

/-- The trend variable of an entry. -/
def TrendEntry.declaration (t : TrendEntry) : Except Erl.Fault Declaration := do
  let name ← Name.ofText? t.name
  return .trend ⟨name, ← Name.ofText? t.source, t.timesteps⟩

/-- The internal variable of an entry. -/
def InternalEntry.declaration (v : InternalEntry) : Except Erl.Fault Declaration := do
  return .internal ⟨← Name.ofText? v.name, v.key, v.dataType⟩

/-- The reported variable of an entry. -/
def OutputEntry.declaration (o : OutputEntry) : Except Erl.Fault Declaration := do
  return .output ⟨o.name, ← Name.ofText? o.source, o.data, o.frequency, o.units⟩

/-- The model with entries declared, in order. -/
def declareEntries (declaration : α → Except Erl.Fault Declaration) (m : Model) :
    List α → Except Erl.Fault Model
  | [] => .ok m
  | x :: rest =>
    match declaration x with
    | .error fault => .error fault
    | .ok d =>
      match m.declare d with
      | .error fault => .error fault
      | .ok next => declareEntries declaration next rest

/-! ## Calling managers -/

/-- The name of the calling manager that a schedule joins. -/
def Schedule.managerName (s : Schedule) : String :=
  s.manager.getD (word s.callingPoint ++ " Programs")

/-- The managers with one more program scheduled.  A manager runs at one calling point; its name
    is compared without regard to the case of ASCII letters. -/
def scheduleProgram (s : Schedule) (program : Name) :
    List CallingManager → Except Defect (List CallingManager)
  | [] => .ok [⟨s.managerName, s.callingPoint, [program]⟩]
  | m :: rest =>
    if Text.sameLetters m.name s.managerName then
      if m.callingPoint = s.callingPoint then
        .ok ({ m with programs := m.programs ++ [program] } :: rest)
      else
        .error (.invalid (.callingPoint program.text)
          (.otherPoint s.callingPoint m.name m.callingPoint))
    else (scheduleProgram s program rest).map (m :: ·)

/-- The managers with a program scheduled if it has a schedule. -/
def scheduleIfAny (s : Option Schedule) (program : Name) (managers : List CallingManager) :
    Except Defect (List CallingManager) :=
  match s with
  | none => .ok managers
  | some s => scheduleProgram s program managers

/-! ## Programs -/

/-- The statement of a line. -/
def LineEntry.statement : LineEntry → Except Erl.Fault Statement
  | .set target value => do
    let target ← Name.ofText? target
    return .assign target (← Expression.ofText? value)
  | .ifThen condition => (Expression.ofText? condition).map fun e => .ifThen (.expression e)
  | .elseIf condition => (Expression.ofText? condition).map fun e => .elseIf (.expression e)
  | .otherwise => .ok .otherwise
  | .endIf => .ok .endIf
  | .run subroutine => (Name.ofText? subroutine).map .run
  | .leave => .ok .leave

/-- The program of a table; its lines are looked at before its name. -/
def TableEntry.program (t : TableEntry) : Except Erl.Fault Program := do
  let body ← t.table.build
  return ⟨← Name.ofText? t.name, body⟩

/-- The program of an entry; its lines one by one, then its name, then the lines together. -/
def ProgramEntry.program (p : ProgramEntry) : Except Erl.Fault Program := do
  let statements ← eachOk LineEntry.statement p.lines
  let name ← Name.ofText? p.name
  return ⟨name, ← Code.ofStatements statements⟩

/-- A model under construction, and the calling managers it will get. -/
structure Progress where
  model : Model
  managers : List CallingManager

/-- One more program, and its place in a schedule. -/
def Progress.add (g : Progress) (declare : Program → Declaration) (program : Program)
    (schedule : Option Schedule) : Except Fault Progress := do
  let model ← (g.model.declare (declare program)).mapError .program
  let managers ← (scheduleIfAny schedule program.name g.managers).mapError .file
  return ⟨model, managers⟩

/-- One more table. -/
def Progress.addTable (g : Progress) (t : TableEntry) : Except Fault Progress := do
  g.add .program (← t.program.mapError .program) t.schedule

/-- One more program or subroutine; subroutines are never scheduled. -/
def Progress.addProgram (g : Progress) (p : ProgramEntry) : Except Fault Progress := do
  let program ← p.program.mapError .program
  if p.subroutine then g.add .subroutine program none else g.add .program program p.schedule

/-- A step for every element of a list. -/
def Progress.each (step : Progress → α → Except Fault Progress) (g : Progress) :
    List α → Except Fault Progress
  | [] => .ok g
  | x :: rest =>
    match step g x with
    | .error fault => .error fault
    | .ok next => Progress.each step next rest

/-! ## Models -/

/-- The model with the declarations of a project, reported variables aside. -/
def declaredModel (p : Project) : Except Erl.Fault Model := do
  let m ← declareEntries SensorEntry.declaration (Model.empty.withReporting p.reporting) p.sensors
  let m ← declareEntries ActuatorEntry.declaration m p.actuators
  let m ← declareEntries globalDeclaration m p.globals
  let m ← declareEntries TrendEntry.declaration m p.trends
  declareEntries InternalEntry.declaration m p.internals

/-- The model with measures applied; without measures nothing is done. -/
def applyMeasures (m : Model) (measures : List Measure) : Except Measure.Fault Model :=
  if measures.isEmpty then .ok m
  else (Measure.applyBatch m measures .first).model?

/-- The model a project describes. -/
def build (p : Project) : Except Fault Model := do
  p.check.mapError .file
  let declared ← p.declaredModel.mapError .program
  let g ← Progress.each Progress.addTable ⟨declared, []⟩ p.tables
  let g ← Progress.each Progress.addProgram g p.programs
  let managed ← (g.model.declareAll (g.managers.map .manager)).model?.mapError .program
  let measured ← (applyMeasures managed p.measures).mapError .measure
  let m ← (declareEntries OutputEntry.declaration measured p.outputs).mapError .program
  m.check.mapError .program
  return m

/-- The remarks that building the measures of a project makes. -/
def notices (p : Project) : List Measure.Notice :=
  p.measures.flatMap Measure.notices

end BuildingControl.Project
