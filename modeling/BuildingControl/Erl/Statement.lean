/-
  BuildingControl.Erl.Statement

  The lines of a control program, and the one function that turns a line into
  text.
-/
import BuildingControl.Erl.Expression

namespace BuildingControl.Erl

/-! ## Comparisons -/

/-- How a variable is compared with a boundary. -/
inductive Comparison
  | le
  | lt
  | ge
  | gt
  | eq
  | ne
  deriving DecidableEq

/-- Every comparison, the usual one first. -/
def Comparison.all : List Comparison := [.le, .lt, .ge, .gt, .eq, .ne]

/-- The comparison as program text. -/
def Comparison.symbol : Comparison → String
  | .le => "<="
  | .lt => "<"
  | .ge => ">="
  | .gt => ">"
  | .eq => "=="
  | .ne => "<>"

/-- The comparison written as a symbol, blanks around it aside. -/
def Comparison.ofText? (text : String) : Except Fault Comparison :=
  match Comparison.all.find? fun c => c.symbol == Text.trim text with
  | some c => .ok c
  | none => .error (.argument .comparison)

/-! ## Conditions -/

/-- A finite number that a variable is compared with. -/
structure Boundary where
  value : Float
  finite : value.isFinite = true

/-- The boundary with this value. -/
def Boundary.ofFloat? (what : String) (value : Float) : Except Fault Boundary :=
  if h : value.isFinite = true then .ok ⟨value, h⟩ else .error (.nonFinite ⟨what, value⟩)

/-- The condition of a branch. -/
inductive Condition
  /-- A variable against a boundary, such as `Tout <= 26.0`. -/
  | compare (subject : Name) (comparison : Comparison) (boundary : Boundary)
  /-- Any text, such as `(Hour >= 6) && (DayOfWeek <= 6)`. -/
  | expression (e : Expression)

/-- A variable against a number, which has to be finite. -/
def Condition.compare? (subject : Name) (comparison : Comparison) (value : Float) :
    Except Fault Condition :=
  (Boundary.ofFloat? "condition boundary" value).map (.compare subject comparison)

/-- The condition as program text. -/
def Condition.render : Condition → String
  | .compare subject comparison boundary =>
    subject.text ++ " " ++ comparison.symbol ++ " " ++ Number.format boundary.value
  | .expression e => e.text

/-- The names a condition refers to. -/
def Condition.names : Condition → Except Fault (List Name)
  | .compare subject _ _ => .ok [subject]
  | .expression e => e.names

/-! ## Statements -/

/-- One line of a program. -/
inductive Statement
  | assign (target : Name) (value : Expression)
  | ifThen (condition : Condition)
  | elseIf (condition : Condition)
  | otherwise
  | endIf
  | run (subroutine : Name)
  | leave

/-- The line as program text. -/
def Statement.render : Statement → String
  | .assign target value => "SET " ++ target.text ++ " = " ++ value.text
  | .ifThen condition => "IF " ++ condition.render
  | .elseIf condition => "ELSEIF " ++ condition.render
  | .otherwise => "ELSE"
  | .endIf => "ENDIF"
  | .run subroutine => "RUN " ++ subroutine.text
  | .leave => "RETURN"

/-! ## The names of a program -/

/-- The names a program reads, assigns to and runs, each in order of first appearance. -/
structure Usage where
  reads : List Name
  writes : List Name
  runs : List Name
  deriving DecidableEq

/-- No names. -/
def Usage.none : Usage := ⟨[], [], []⟩

/-- The names of one usage, then those of another that are not there yet. -/
def Usage.append (u v : Usage) : Usage :=
  ⟨pushUnique u.reads v.reads, pushUnique u.writes v.writes, pushUnique u.runs v.runs⟩

/-- The names of one line. -/
def Statement.usage : Statement → Except Fault Usage
  | .assign target value => value.names.map fun names => ⟨names, [target], []⟩
  | .ifThen condition => condition.names.map fun names => ⟨names, [], []⟩
  | .elseIf condition => condition.names.map fun names => ⟨names, [], []⟩
  | .run subroutine => .ok ⟨[], [], [subroutine]⟩
  | .otherwise => .ok .none
  | .endIf => .ok .none
  | .leave => .ok .none

/-- The names of a list of lines. -/
def usageOf (statements : List Statement) : Except Fault Usage :=
  statements.foldlM (fun acc s => s.usage.map acc.append) .none

/-- Every name a program reads or assigns to. -/
def Usage.variables (u : Usage) : List Name :=
  pushUnique u.reads u.writes

end BuildingControl.Erl
