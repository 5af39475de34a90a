/-
  BuildingControl.Project.Defect

  What can be wrong with a project file, with the place in the file.
-/
import BuildingControl.Project.Basic

namespace BuildingControl.Project

open Erl Model

/-! ## Places -/

/-- The declarations of a project that come in lists. -/
inductive Section
  | sensors
  | actuators
  | globals
  | trends
  | internals
  | outputs
  | tables
  | programs
  deriving DecidableEq

/-- The name of a section in a project file. -/
def Section.title : Section → String
  | .sensors => "sensors"
  | .actuators => "actuators"
  | .globals => "globals"
  | .trends => "trends"
  | .internals => "internal_variables"
  | .outputs => "output_variables"
  | .tables => "rule_programs"
  | .programs => "programs"

/-- A place in a project file. -/
inductive Place
  /-- A whole section. -/
  | whole (part : Section)
  /-- An entry, by its position. -/
  | entry (part : Section) (i : Nat)
  /-- A field of an entry. -/
  | field (part : Section) (i : Nat) (name : String)
  /-- A line of a program. -/
  | line (program : Nat) (i : Nat)
  /-- The boundary of a row of a table. -/
  | boundary (table : Nat) (i : Nat)
  /-- The calling point that a schedule gives to a program. -/
  | callingPoint (program : String)
  deriving DecidableEq

/-- The wording of a place. -/
def Place.text : Place → String
  | .whole part => part.title
  | .entry part i => s!"{part.title}[{i}]"
  | .field part i name => s!"{part.title}[{i}].{name}"
  | .line program i => s!"programs[{program}].lines[{i}]"
  | .boundary table i => s!"rule_programs[{table}].rules[{i}].boundary"
  | .callingPoint program => s!"schedule.calling_point of {program}"

/-! ## Defects -/

/-- What is wrong with a value. -/
inductive Flaw
  | name (text : String) (reason : NameReason)
  | field (text : String) (reason : FieldReason)
  | noTimestep
  | noRules
  | notFinite (boundary : Float)
  | otherPoint (point : CallingPoint) (manager : String) (earlier : CallingPoint)

/-- The value that a flaw is in. -/
def Flaw.value : Flaw → String
  | .name text _ => text
  | .field text _ => text
  | .noTimestep => "0"
  | .noRules => "[]"
  | .notFinite boundary => Number.inMessage boundary
  | .otherPoint point _ _ => word point

/-- The wording of a flaw. -/
def Flaw.text : Flaw → String
  | .name text reason => (Erl.Fault.invalidName text reason).message
  | .field _ reason => reason.text
  | .noTimestep => "must log at least one timestep"
  | .noRules => "at least one rule is required"
  | .notFinite _ => "must be finite"
  | .otherPoint _ manager earlier => s!"manager '{manager}' already runs at {word earlier}"

/-- What is wrong with a project. -/
inductive Defect
  | duplicate (id : String) (place : Place)
  | missing (id : String) (place : Place)
  | invalid (place : Place) (flaw : Flaw)
  | notOffered (place : Place) (control : String) (kind : ComponentKind)
  | scheduledSubroutine (place : Place)
  | laterVersion (version : Nat)

/-- Texts in quotes, as a list in brackets. -/
def quotedList (texts : List String) : String :=
  "[" ++ String.intercalate ", " (texts.map fun t => "\"" ++ t ++ "\"") ++ "]"

/-- The wording of a defect. -/
def Defect.message : Defect → String
  | .duplicate id place => s!"Duplicate ID: {id} in {place.text}"
  | .missing id place => s!"Missing reference: {id} in {place.text}"
  | .invalid place flaw => s!"Invalid value: {place.text} = {flaw.value} ({flaw.text})"
  | .notOffered place control kind =>
    s!"Unsupported feature: {place.text} = {control} - " ++
      s!"{kind.label} components offer {quotedList kind.controls}"
  | .scheduledSubroutine place =>
    s!"Unsupported feature: {place.text} - " ++
      "subroutines run through RUN, not from a calling manager"
  | .laterVersion version => s!"Unsupported version: {version}"

end BuildingControl.Project
