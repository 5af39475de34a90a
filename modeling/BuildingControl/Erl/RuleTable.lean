/-
  BuildingControl.Erl.RuleTable

  Threshold tables: rows of a boundary and an action, and a default action.
  A table is written as one chain of branches,

      IF Tout <= 26.0
      SET C = TC_25
      ELSEIF Tout <= 28.0
      SET C = TC_27
      ELSE
      SET C = TC_85
      ENDIF

  in the order in which the rows were given; nothing is sorted.
-/
import BuildingControl.Checking
import BuildingControl.Erl.Code

namespace BuildingControl.Erl

/-! ## Tables -/

/-- `SET target = value` -/
structure Action where
  target : Name
  value : Expression

/-- One row: the action taken on its side of the boundary. -/
structure Rule where
  boundary : Boundary
  action : Action

/-- A table with at least one row. -/
structure RuleTable where
  subject : Name
  comparison : Comparison
  rules : List Rule
  otherwise : Action
  nonempty : rules ≠ []

/-- The action as a line. -/
def Action.statement (a : Action) : Statement :=
  .assign a.target a.value

/-- The condition under which a row applies. -/
def RuleTable.condition (t : RuleTable) (r : Rule) : Condition :=
  .compare t.subject t.comparison r.boundary

/-- The branches after the first. -/
def RuleTable.laterLines (t : RuleTable) : List Rule → List Statement
  | [] => []
  | r :: rest => .elseIf (t.condition r) :: r.action.statement :: t.laterLines rest

/-- The rows as branches. -/
def RuleTable.branchLines (t : RuleTable) : List Rule → List Statement
  | [] => []
  | r :: rest => .ifThen (t.condition r) :: r.action.statement :: t.laterLines rest

/-- The table as a chain of branches. -/
def RuleTable.statements (t : RuleTable) : List Statement :=
  t.branchLines t.rules ++ [.otherwise, t.otherwise.statement, .endIf]

/-- The table as a program. -/
def RuleTable.compile (t : RuleTable) : Except Fault Code :=
  Code.ofStatements t.statements

/-- A row whose boundary has to be finite. -/
def Rule.ofParts (boundary : Float) (action : Action) : Except Fault Rule :=
  (Boundary.ofFloat? "rule boundary" boundary).map fun b => ⟨b, action⟩

/-- The table made of these rows. -/
def RuleTable.ofRules (subject : Name) (comparison : Comparison) (rules : List Rule)
    (otherwise : Action) : Except Fault RuleTable :=
  match rules with
  | [] => .error .noRules
  | r :: rest => .ok ⟨subject, comparison, r :: rest, otherwise, List.cons_ne_nil r rest⟩

/-- The table made of these rows, whose boundaries have to be finite. -/
def RuleTable.ofParts (subject : Name) (comparison : Comparison) (rules : List (Float × Action))
    (otherwise : Action) : Except Fault RuleTable :=
  match eachOk (fun r => Rule.ofParts r.1 r.2) rules with
  | .ok checked => RuleTable.ofRules subject comparison checked otherwise
  | .error fault => .error fault

/-! ## Tables in writing -/

/-- A row as it is written down: nothing in it is checked yet. -/
structure RuleText where
  boundary : Float
  target : String
  value : String
  deriving BEq

/-- An action as it is written down. -/
structure ActionText where
  target : String
  value : String
  deriving BEq

/-- A table as it is written down. -/
structure TableText where
  subject : String
  comparison : Comparison
  rules : List RuleText
  otherwise : Option ActionText

/-- The checked table.  Faults come in this order: no rows, no default, names, boundaries,
    expressions. -/
def TableText.table (t : TableText) : Except Fault RuleTable :=
  if t.rules.isEmpty then .error .noRules
  else
    match t.otherwise with
    | none => .error .noDefault
    | some default => do
      let subject ← Name.ofText? t.subject
      let targets ← eachOk (fun r => Name.ofText? r.target) t.rules
      let fallback ← Name.ofText? default.target
      let bounds ← eachOk (fun r => Boundary.ofFloat? "rule boundary" r.boundary) t.rules
      let values ← eachOk (fun r => Expression.ofText? r.value) t.rules
      let value ← Expression.ofText? default.value
      let actions := List.zipWith Action.mk targets values
      RuleTable.ofRules subject t.comparison (List.zipWith Rule.mk bounds actions) ⟨fallback, value⟩

/-- The table as a program. -/
def TableText.build (t : TableText) : Except Fault Code := do
  (← t.table).compile

end BuildingControl.Erl
