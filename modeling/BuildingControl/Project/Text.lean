/-
  BuildingControl.Project.Text

  Projects as the text of a file, in either format.  A text that is read is
  brought up to the latest version and checked; a project is checked before it
  is written.
-/
import BuildingControl.Coding.Project
import BuildingControl.Document.Json.Reading
import BuildingControl.Document.Json.Writing
import BuildingControl.Document.Yaml.Reading
import BuildingControl.Document.Yaml.Writing
import BuildingControl.Project.Check
import BuildingControl.Project.Fault
import BuildingControl.Project.Upgrade

namespace BuildingControl.Project

open Document

/-- The project in a text as it stands, of any version and unchecked. -/
def decode? (format : Format) (text : String) : Option Project :=
  match format with
  | .yaml => (Yaml.read? text).bind Coding.project?
  | .json => (Json.read? text).bind Coding.project?

/-- The text of a project, unchecked. -/
def encode (format : Format) (p : Project) : String :=
  match format with
  | .yaml => Yaml.write (Coding.projectValue p)
  | .json => Json.pretty (Coding.projectValue p)

/-- The project in a text, of the latest version and checked. -/
def read (format : Format) (text : String) : Except Fault Project :=
  match decode? format text with
  | none => .error (.malformed format)
  | some old =>
    let p := old.upgrade
    match p.check with
    | .error defect => .error (.file defect)
    | .ok () => .ok p

/-- The text of a checked project. -/
def write (format : Format) (p : Project) : Except Fault String :=
  match p.check with
  | .error defect => .error (.file defect)
  | .ok () => .ok (encode format p)

end BuildingControl.Project
