/-
  BuildingControl.Service.Rule

  Threshold tables from arguments: a row is `BOUNDARY:VARIABLE:EXPRESSION`, an
  action `VARIABLE:EXPRESSION`.  An expression may hold colons of its own.
-/
import BuildingControl.Erl.RuleTable
import BuildingControl.Service.Fault

namespace BuildingControl.Service

open Erl

/-- What stands before and after the first colon. -/
def splitAtColon : List Char → Option (List Char × List Char)
  | [] => none
  | c :: rest =>
    if c = ':' then some ([], rest) else (splitAtColon rest).map fun p => (c :: p.1, p.2)

/-- The text of characters without the blanks at either end. -/
def trimmed (cs : List Char) : String :=
  String.ofList (Text.trimChars cs)

/-- The row of an argument. -/
def readRule (argument : String) : Except Fault RuleText :=
  match splitAtColon argument.toList with
  | none => .error (.argument (.rule argument))
  | some (boundary, rest) =>
    match splitAtColon rest with
    | none => .error (.argument (.rule argument))
    | some (target, value) =>
      match Decimal.readChars (Text.trimChars boundary) with
      | .error reason => .error (.argument (.boundary argument reason))
      | .ok x => .ok ⟨x, trimmed target, trimmed value⟩

/-- The action of an argument. -/
def readAction (argument : String) : Except Fault ActionText :=
  match splitAtColon argument.toList with
  | none => .error (.argument (.action argument))
  | some (target, value) => .ok ⟨trimmed target, trimmed value⟩

/-- The program of a table, its rows in the given order. -/
def compileTable (table : TableText) : Except Fault Code :=
  table.build.mapError .program

end BuildingControl.Service
