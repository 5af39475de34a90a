/-
  BuildingControl.Model.Basic

  A model: every declared object in the order of declaration, the reporting
  settings, and the names in use.  Variables, programs and subroutines share one
  space of names, in which case does not matter; calling managers and reported
  outputs have one each, told apart by their upper case.  Adding an object looks
  at the names in use only, never at the other objects.
-/
import BuildingControl.Text.Uppercase
import BuildingControl.Model.Keyword
import BuildingControl.Model.Registry

namespace BuildingControl

open Erl Model

/-- The objects of a simulation that control programs are bound to. -/
structure Model where
  sensors : List Sensor
  actuators : List Actuator
  globals : List Name
  trends : List Trend
  internals : List InternalVariable
  constructions : List ConstructionIndex
  outputs : List OutputVariable
  programs : List Program
  subroutines : List Program
  managers : List CallingManager
  requests : List OutputRequest
  reporting : Reporting
  /-- The keys of variables, programs and subroutines, each with what it stands for. -/
  names : Registry
  /-- The upper-cased names of calling managers. -/
  managerNames : KeySet
  /-- The upper-cased names of reported outputs. -/
  outputNames : KeySet

namespace Model

/-- No objects, nothing reported, no name in use. -/
def empty : Model :=
  ⟨[], [], [], [], [], [], [], [], [], [], [], .silent, .empty, .empty, .empty⟩

/-- An object to be added to a model. -/
inductive Declaration
  | sensor (s : Sensor)
  | actuator (a : Actuator)
  | global (name : Name)
  | trend (t : Trend)
  | internal (v : InternalVariable)
  | construction (c : ConstructionIndex)
  | output (o : OutputVariable)
  | program (p : Program)
  | subroutine (p : Program)
  | manager (m : CallingManager)
  | request (r : OutputRequest)

/-! ## Names -/

/-- The names that the objects carry: variables, programs and subroutines, each with what it
    stands for. -/
def declared (m : Model) : List (Name × NameClass) :=
  m.sensors.map (fun s => (s.name, .sensor)) ++
  (m.actuators.map (fun a => (a.name, .actuator)) ++
  (m.globals.map (fun g => (g, .global)) ++
  (m.trends.map (fun t => (t.name, .trend)) ++
  (m.internals.map (fun v => (v.name, .internal)) ++
  (m.constructions.map (fun c => (c.name, .constructionIndex)) ++
  (m.programs.map (fun p => (p.name, .program)) ++
   m.subroutines.map (fun p => (p.name, .subroutine))))))))

/-- What a name stands for, in any spelling. -/
def lookup? (m : Model) (text : String) : Option NameClass :=
  m.names.find? (Text.asciiUpper text)

/-- Whether a name is taken. -/
def hasName (m : Model) (text : String) : Bool :=
  (m.lookup? text).isSome

/-- Whether a calling manager of this name is there. -/
def hasManager (m : Model) (name : String) : Bool :=
  m.managerNames.contains (Text.upper name)

/-- Whether an output is reported under this name. -/
def hasOutput (m : Model) (name : String) : Bool :=
  m.outputNames.contains (Text.upper name)

/-- Whether the same is requested already. -/
def hasRequest (m : Model) (r : OutputRequest) : Bool :=
  m.requests.any fun x => x.sameAs r

/-- The program or subroutine of this name, in any spelling. -/
def findProgram? (m : Model) (text : String) : Option Program :=
  (m.programs ++ m.subroutines).find? fun p => Text.sameLetters p.name.text text

/-! ## Declaring -/

/-- A fault where a condition holds. -/
def refuseIf (condition : Bool) (fault : Fault) : Except Fault Unit :=
  if condition then .error fault else .ok ()

/-- A text of the building that has to fit one field. -/
def requireField (field : HostField) (value : String) : Except Fault Unit :=
  match fieldReason? value with
  | none => .ok ()
  | some reason => .error (.invalidField field value reason)

/-- A name that has to be free. -/
def requireFree (m : Model) (name : Name) : Except Fault Unit :=
  refuseIf (m.hasName name.text) (.duplicateName name.text)

/-- What has to hold for an object to be added. -/
def admit? (m : Model) : Declaration → Except Fault Unit
  | .sensor s => do
    requireField .sensorKey s.key
    requireField .sensorOutput s.output
    m.requireFree s.name
  | .actuator a => do
    requireField .component a.component
    requireField .componentType a.componentType
    requireField .controlType a.control
    m.requireFree a.name
  | .global name => m.requireFree name
  | .trend t => do
    refuseIf (t.timesteps == 0) (.argument .emptyTrend)
    m.requireFree t.name
  | .internal v => do
    requireField .internalKey v.key
    requireField .internalType v.dataType
    m.requireFree v.name
  | .construction c => do
    requireField .construction c.construction
    m.requireFree c.name
  | .output o => do
    requireField .outputName o.name
    requireField .outputUnits (o.units.getD "")
    refuseIf (m.hasOutput o.name) (.duplicateName o.name)
  | .program p => m.requireFree p.name
  | .subroutine p => m.requireFree p.name
  | .manager c => do
    requireField .managerName c.name
    refuseIf (m.hasManager c.name) (.duplicateName c.name)
  | .request r => do
    requireField .requestKey r.key
    requireField .requestVariable r.variableName

/-- The model with a name taken. -/
def register (m : Model) (name : Name) (cls : NameClass) : Model :=
  { m with names := m.names.insert name.key cls }

/-- The model with one more object at the end of its list and its name taken; a request that is
    there already is dropped. -/
def push (m : Model) : Declaration → Model
  | .sensor s => { m.register s.name .sensor with sensors := m.sensors ++ [s] }
  | .actuator a => { m.register a.name .actuator with actuators := m.actuators ++ [a] }
  | .global name => { m.register name .global with globals := m.globals ++ [name] }
  | .trend t => { m.register t.name .trend with trends := m.trends ++ [t] }
  | .internal v => { m.register v.name .internal with internals := m.internals ++ [v] }
  | .construction c =>
    { m.register c.name .constructionIndex with constructions := m.constructions ++ [c] }
  | .output o =>
    { m with outputs := m.outputs ++ [o], outputNames := m.outputNames.insert (Text.upper o.name) }
  | .program p => { m.register p.name .program with programs := m.programs ++ [p] }
  | .subroutine p => { m.register p.name .subroutine with subroutines := m.subroutines ++ [p] }
  | .manager c =>
    { m with
      managers := m.managers ++ [c], managerNames := m.managerNames.insert (Text.upper c.name) }
  | .request r => if m.hasRequest r then m else { m with requests := m.requests ++ [r] }

/-- The model with one more object. -/
def declare (m : Model) (d : Declaration) : Except Fault Model :=
  (m.admit? d).map fun _ => m.push d

/-- What an operation on a model comes to: the model it leaves behind, which an operation that
    fails halfway may have changed, and its result. -/
abbrev Attempt (ε α : Type) := Model × Except ε α

/-- Adds objects in order, up to the first one that is refused. -/
def declareAll (m : Model) : List Declaration → Attempt Fault Unit
  | [] => (m, .ok ())
  | d :: rest =>
    match m.declare d with
    | .ok next => next.declareAll rest
    | .error fault => (m, .error fault)

/-- The model an operation leaves behind, if the operation succeeds. -/
def Attempt.model? : Attempt ε α → Except ε Model
  | (m, .ok _) => .ok m
  | (_, .error fault) => .error fault

/-- The model with other reporting settings. -/
def withReporting (m : Model) (r : Reporting) : Model := { m with reporting := r }

/-! ## Counts -/

/-- How many objects of each kind a model has. -/
structure Summary where
  sensors : Nat
  actuators : Nat
  globals : Nat
  trends : Nat
  internals : Nat
  constructions : Nat
  outputs : Nat
  programs : Nat
  subroutines : Nat
  managers : Nat
  requests : Nat
  programLines : Nat
  deriving DecidableEq

/-- The counts of a model. -/
def summary (m : Model) : Summary where
  sensors := m.sensors.length
  actuators := m.actuators.length
  globals := m.globals.length
  trends := m.trends.length
  internals := m.internals.length
  constructions := m.constructions.length
  outputs := m.outputs.length
  programs := m.programs.length
  subroutines := m.subroutines.length
  managers := m.managers.length
  requests := m.requests.length
  programLines := ((m.programs ++ m.subroutines).flatMap fun p => p.body.lines).length

/-- The counts in one line of text. -/
def Summary.text (s : Summary) : String :=
  s!"{s.sensors} sensors, {s.actuators} actuators, {s.globals} globals, {s.trends} trends, " ++
  s!"{s.internals} internal variables, {s.constructions} construction indices, " ++
  s!"{s.outputs} output variables, {s.programs} programs, {s.subroutines} subroutines, " ++
  s!"{s.managers} calling managers, {s.requests} output requests, " ++
  s!"{s.programLines} program lines"

end Model

end BuildingControl
