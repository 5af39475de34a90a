/-
  BuildingControl.Service.Fault

  What can go wrong while a user's request is carried out.
-/
import BuildingControl.Decimal.Reading
import BuildingControl.Project.Fault

namespace BuildingControl.Service

/-- Why an argument is no rule or no action. -/
inductive ArgumentFault
  | rule (argument : String)
  | boundary (argument : String) (reason : Decimal.ReadFault)
  | action (argument : String)
  deriving DecidableEq

/-- The wording of an argument fault. -/
def ArgumentFault.text : ArgumentFault → String
  | .rule argument => s!"rule '{argument}' is not BOUNDARY:VARIABLE:EXPRESSION"
  | .boundary argument reason => s!"rule '{argument}' has a bad boundary: {reason.message}"
  | .action argument => s!"default '{argument}' is not VARIABLE:EXPRESSION"

/-- Why a request fails. -/
inductive Fault
  | project (fault : Project.Fault)
  | unreadableFile (path : String)
  | unwritableFile (path : String)
  | program (fault : Erl.Fault)
  | argument (fault : ArgumentFault)

/-- The wording of a fault. -/
def Fault.message : Fault → String
  | .project fault => s!"Project error: {fault.message}"
  | .unreadableFile path => s!"Failed to read project file: {path}"
  | .unwritableFile path => s!"Failed to write file: {path}"
  | .program fault => s!"Program error: {fault.message}"
  | .argument fault => s!"Invalid input: {fault.text}"

end BuildingControl.Service
