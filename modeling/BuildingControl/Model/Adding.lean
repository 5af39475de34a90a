/-
  BuildingControl.Model.Adding

  Adding an object step by step: the checks, the entry in the registry of names
  and the entry in the list of objects follow one another on a model that is
  changed in place.  A fault stops the steps and undoes none of them.

  `declare` looks at everything first and changes the model last; that the two
  agree is `Proofs/Model/Adding`.
-/
import BuildingControl.Model.Basic

namespace BuildingControl.Model

open Erl

/-- Steps on a model that is changed in place; what was done before a fault stays done. -/
abbrev Steps (α : Type) := ExceptT Fault (StateM Model) α

namespace Steps

/-- What the steps come to on a model. -/
def attempt (steps : Steps α) (m : Model) : Attempt Fault α :=
  let r := (ExceptT.run steps).run m
  (r.2, r.1)

/-- A check that changes nothing. -/
def require (check : Except Fault Unit) : Steps Unit :=
  ExceptT.mk (pure check)

/-- Enters a name into the registry unless it is there. -/
def takeName (name : Name) (cls : NameClass) : Steps Unit := do
  require (refuseIf ((← get).hasName name.text) (.duplicateName name.text))
  modify fun m => m.register name cls

/-- Enters a name into a set; the fault follows if it was there. -/
def takeFrom (isTaken : Model → Bool) (enter : Model → Model) (name : String) : Steps Unit := do
  let there := isTaken (← get)
  modify enter
  require (refuseIf there (.duplicateName name))

/-- Enters the upper case of an output's name. -/
def takeOutput (name : String) : Steps Unit :=
  takeFrom (·.hasOutput name)
    (fun m => { m with outputNames := m.outputNames.insert (Text.upper name) }) name

/-- Enters the upper case of a manager's name. -/
def takeManager (name : String) : Steps Unit :=
  takeFrom (·.hasManager name)
    (fun m => { m with managerNames := m.managerNames.insert (Text.upper name) }) name

end Steps

open Steps in
/-- Adds one object, step by step. -/
def add : Declaration → Steps Unit
  | .sensor s => do
    require (requireField .sensorKey s.key)
    require (requireField .sensorOutput s.output)
    takeName s.name .sensor
    modify fun m => { m with sensors := m.sensors ++ [s] }
  | .actuator a => do
    require (requireField .component a.component)
    require (requireField .componentType a.componentType)
    require (requireField .controlType a.control)
    takeName a.name .actuator
    modify fun m => { m with actuators := m.actuators ++ [a] }
  | .global name => do
    takeName name .global
    modify fun m => { m with globals := m.globals ++ [name] }
  | .trend t => do
    require (refuseIf (t.timesteps == 0) (.argument .emptyTrend))
    takeName t.name .trend
    modify fun m => { m with trends := m.trends ++ [t] }
  | .internal v => do
    require (requireField .internalKey v.key)
    require (requireField .internalType v.dataType)
    takeName v.name .internal
    modify fun m => { m with internals := m.internals ++ [v] }
  | .construction c => do
    require (requireField .construction c.construction)
    takeName c.name .constructionIndex
    modify fun m => { m with constructions := m.constructions ++ [c] }
  | .output o => do
    require (requireField .outputName o.name)
    require (requireField .outputUnits (o.units.getD ""))
    takeOutput o.name
    modify fun m => { m with outputs := m.outputs ++ [o] }
  | .program p => do
    takeName p.name .program
    modify fun m => { m with programs := m.programs ++ [p] }
  | .subroutine p => do
    takeName p.name .subroutine
    modify fun m => { m with subroutines := m.subroutines ++ [p] }
  | .manager c => do
    require (requireField .managerName c.name)
    takeManager c.name
    modify fun m => { m with managers := m.managers ++ [c] }
  | .request r => do
    require (requireField .requestKey r.key)
    require (requireField .requestVariable r.variableName)
    unless (← get).hasRequest r do
      modify fun m => { m with requests := m.requests ++ [r] }

end BuildingControl.Model
