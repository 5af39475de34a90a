/-
  BuildingControl.Project.Fault

  What can go wrong between a project file and its model.
-/
import BuildingControl.Project.Defect
import BuildingControl.Project.Format

namespace BuildingControl.Project

/-- Why a project cannot be read, written or built. -/
inductive Fault
  | file (defect : Defect)
  | unknownFormat (path : String)
  /-- A text that is no project in the format it was given in. -/
  | malformed (format : Format)
  /-- A file that cannot be read or written. -/
  | storage
  | program (fault : Erl.Fault)
  | measure (fault : Measure.Fault)

/-- The wording of a fault. -/
def Fault.message : Fault → String
  | .file defect => s!"Validation error: {defect.message}"
  | .unknownFormat path => s!"Unknown project format: {path} (expected .yaml, .yml or .json)"
  | .malformed .yaml => "YAML error: not a project"
  | .malformed .json => "JSON error: not a project"
  | .storage => "I/O error: file not accessible"
  | .program fault => s!"Program error: {fault.message}"
  | .measure fault => s!"Measure error: {fault.message}"

end BuildingControl.Project
