/-
  BuildingControl.Model.Check

  Whether every reference inside a model leads somewhere: what programs read is
  declared or assigned in the same body, nothing read-only is assigned to, and
  subroutines, programs of calling managers, logged and reported variables
  exist.
-/
import BuildingControl.Checking
import BuildingControl.Model.Basic

namespace BuildingControl.Model

open Erl

/-- Whether a name stands for a variable. -/
def isVariable (m : Model) (name : Name) : Bool :=
  (m.lookup? name.text).any NameClass.isVariable

/-- Whether a body assigns to a name, in any spelling. -/
def assigns (body : Code) (name : Name) : Bool :=
  body.writes.any fun w => w.key == name.key

/-- A name that a body reads. -/
def checkRead (m : Model) (place : Place) (body : Code) (name : Name) : Except Fault Unit :=
  if m.isVariable name || assigns body name then .ok () else .error (.undeclared name.text place)

/-- A name that a body assigns to; one that is not declared is local to the body. -/
def checkWrite (m : Model) (place : Place) (name : Name) : Except Fault Unit :=
  match m.lookup? name.text with
  | none => .ok ()
  | some cls => if cls.isWritable then .ok () else .error (.readOnly name.text place cls)

/-- A name that has to stand for something in particular. -/
def checkReference (m : Model) (place : Place) (accept : NameClass → Bool) (name : Name) :
    Except Fault Unit :=
  if (m.lookup? name.text).any accept then .ok () else .error (.unknownReference name.text place)

/-- A program or subroutine. -/
def checkBody (m : Model) (place : Place) (body : Code) : Except Fault Unit := do
  allOk (m.checkRead place body) body.reads
  allOk (m.checkWrite place) body.writes
  allOk (m.checkReference place (· == .subroutine)) body.runs

/-- Whether a trend may log what a name stands for. -/
def isLogged : NameClass → Bool
  | .sensor => true
  | .global => true
  | _ => false

/-- Whether every reference of a model leads somewhere. -/
def check (m : Model) : Except Fault Unit := do
  allOk (fun p => m.checkBody (.program p.name.text) p.body) m.programs
  allOk (fun p => m.checkBody (.subroutine p.name.text) p.body) m.subroutines
  allOk (fun c => allOk (m.checkReference (.manager c.name) (· == .program)) c.programs) m.managers
  allOk (fun t => m.checkReference (.trend t.name.text) isLogged t.source) m.trends
  allOk (fun o => m.checkReference (.output o.name) NameClass.isVariable o.source) m.outputs

end BuildingControl.Model
