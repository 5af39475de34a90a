/-
  BuildingControl.Project.Format

  The formats of project files.  A file's extension tells its format.
-/
import BuildingControl.Text.Letter

namespace BuildingControl.Project

/-- How a project file is written. -/
inductive Format
  | yaml
  | json
  deriving DecidableEq

/-- The components of a path; empty ones and dots are no components. -/
def pathComponents (path : String) : List String :=
  (path.splitOn "/").filter fun c => c ≠ "" ∧ c ≠ "."

/-- The file a path leads to, if it ends in a name. -/
def fileName? (path : String) : Option String :=
  (pathComponents path).getLast?.filter fun name => name ≠ ".."

/-- What follows the last dot of a name; a dot at the very front does not count. -/
def extensionChars? (name : List Char) : Option (List Char) :=
  match name.reverse.span (· != '.') with
  | (_, []) => none
  | (_, [_]) => none
  | (after, _) => some after.reverse

/-- The extension of the file a path leads to. -/
def extension? (path : String) : Option String :=
  (fileName? path).bind fun name => (extensionChars? name.toList).map String.ofList

/-- The format that a path's extension names, in any spelling. -/
def Format.ofPath? (path : String) : Option Format :=
  match (extension? path).map Text.asciiLower with
  | some "yaml" => some .yaml
  | some "yml" => some .yaml
  | some "json" => some .json
  | _ => none

end BuildingControl.Project
