/-
  BuildingControl.Erl.Code

  Checked program text.  Code is a list of lines that is not empty, whose
  branches match, and whose names are known; it is made by `Code.ofStatements`
  alone, so whoever holds it holds a complete program.  A draft is a program
  under construction: its lines, each of them a statement or the reason why it
  is none.
-/
import BuildingControl.Erl.Block

namespace BuildingControl.Erl

/-! ## Code -/

/-- The names of a list of lines that may stand as a program. -/
def examine (statements : List Statement) : Except Fault Usage :=
  if statements.isEmpty then .error (.argument .emptyProgram)
  else do
    (checkBlocks statements).mapError .unmatchedBranch
    let usage ← usageOf statements
    (checkLines (statements.map Statement.render)).mapError .unmatchedBranch
    return usage

/-- A checked program. -/
structure Code where
  statements : List Statement
  usage : Usage
  examined : examine statements = .ok usage

/-- The program made of these lines. -/
def Code.ofStatements (statements : List Statement) : Except Fault Code :=
  match h : examine statements with
  | .ok usage => .ok ⟨statements, usage, h⟩
  | .error fault => .error fault

/-- The lines of a program as text. -/
def Code.lines (c : Code) : List String :=
  c.statements.map Statement.render

/-- The names a program reads. -/
def Code.reads (c : Code) : List Name := c.usage.reads

/-- The names a program assigns to. -/
def Code.writes (c : Code) : List Name := c.usage.writes

/-- The subroutines a program runs. -/
def Code.runs (c : Code) : List Name := c.usage.runs

/-- The program as one text, its lines parted by line feeds. -/
def Code.text (c : Code) : String :=
  String.intercalate "\n" c.lines

/-! ## Drafts -/

/-- A program under construction: lines, or the reasons why they are none. -/
abbrev Draft := List (Except Fault Statement)

namespace Draft

/-- `SET target = value` -/
def set (target value : String) : Draft :=
  [do return .assign (← Name.ofText? target) (← Expression.ofText? value)]

/-- A branch on a variable against a number. -/
def compare (branch : Condition → Statement) (subject : String) (comparison : Comparison)
    (value : Float) : Draft :=
  [do
    let name ← Name.ofText? subject
    return branch (← Condition.compare? name comparison value)]

/-- A branch on an expression. -/
def test (branch : Condition → Statement) (text : String) : Draft :=
  [(Expression.ofText? text).map fun e => branch (.expression e)]

/-- `IF subject comparison value` -/
def ifCompare (subject : String) (comparison : Comparison) (value : Float) : Draft :=
  compare .ifThen subject comparison value

/-- `RUN subroutine` -/
def run (subroutine : String) : Draft :=
  [(Name.ofText? subroutine).map .run]

/-- A line that is already a statement. -/
def push (s : Statement) : Draft := [.ok s]

/-- Every line of a finished program. -/
def ofCode (c : Code) : Draft := c.statements.map .ok

/-- The lines of a draft, or the first reason against one. -/
def statements? : Draft → Except Fault (List Statement)
  | [] => .ok []
  | .ok s :: rest => (statements? rest).map (s :: ·)
  | .error fault :: _ => .error fault

/-- The program a draft has become. -/
def build (d : Draft) : Except Fault Code :=
  match d.statements? with
  | .ok statements => Code.ofStatements statements
  | .error fault => .error fault

end Draft

end BuildingControl.Erl
