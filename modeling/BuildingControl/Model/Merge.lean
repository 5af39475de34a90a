/-
  BuildingControl.Model.Merge

  One model added to another.  The objects of the other model come in one by
  one; names are compared beforehand, so that none of them is refused halfway.
-/
import BuildingControl.Model.Basic

namespace BuildingControl.Model

open Erl

/-- Every object of a model, kind by kind, in the order in which a merge adds them. -/
def declarations (m : Model) : List Declaration :=
  m.sensors.map .sensor ++ (m.actuators.map .actuator ++ (m.globals.map .global ++
  (m.trends.map .trend ++ (m.internals.map .internal ++ (m.constructions.map .construction ++
  (m.outputs.map .output ++ (m.programs.map .program ++ (m.subroutines.map .subroutine ++
  (m.managers.map .manager ++ m.requests.map .request)))))))))

/-- The first name of another model that is taken here: variables, programs and subroutines
    first, then calling managers, then outputs. -/
def clash? (m other : Model) : Option String :=
  ((other.declared.map fun d => d.1.text).find? m.hasName).or
    (((other.managers.map CallingManager.name).find? m.hasManager).or
      ((other.outputs.map OutputVariable.name).find? m.hasOutput))

/-- Adds every object of another model; the reporting settings stay. -/
def merge (m other : Model) : Attempt Fault Unit :=
  match m.clash? other with
  | some name => (m, .error (.duplicateName name))
  | none => m.declareAll other.declarations

end BuildingControl.Model
