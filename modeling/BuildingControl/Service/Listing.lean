/-
  BuildingControl.Service.Listing

  The programs and subroutines of a model, with the calling manager that runs
  each.
-/
import BuildingControl.Model.Basic

namespace BuildingControl.Service

open Erl Model

/-- Whether a body is scheduled or run by other programs. -/
inductive BodyKind
  | program
  | subroutine
  deriving DecidableEq

/-- The name of a kind of body. -/
def BodyKind.label : BodyKind → String
  | .program => "program"
  | .subroutine => "subroutine"

/-- One program or subroutine of a listing. -/
structure ListedProgram where
  name : String
  kind : BodyKind
  /-- The calling manager and its calling point, for scheduled programs. -/
  schedule : Option (String × CallingPoint)
  lineCount : Nat
  reads : List String

/-- The calling manager that runs a program of exactly this spelling. -/
def scheduleOf? (m : Model) (name : String) : Option (String × CallingPoint) :=
  (m.managers.find? fun c => c.programs.any fun p => p.text == name).map fun c =>
    (c.name, c.callingPoint)

/-- A program or subroutine as it is listed. -/
def listed (m : Model) (kind : BodyKind) (p : Program) : ListedProgram where
  name := p.name.text
  kind := kind
  schedule := match kind with
    | .program => scheduleOf? m p.name.text
    | .subroutine => none
  lineCount := p.body.lines.length
  reads := p.body.reads.map Name.text

/-- The programs of a model, then its subroutines. -/
def listing (m : Model) : List ListedProgram :=
  m.programs.map (listed m .program) ++ m.subroutines.map (listed m .subroutine)

end BuildingControl.Service
