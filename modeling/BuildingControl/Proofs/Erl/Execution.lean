/-
  BuildingControl.Proofs.Erl.Execution

  What control programs do when they run.  A machine says what an assignment
  does to a state and which conditions hold in it; the rest is the same for every
  machine: of a chain of branches the first that holds runs, `RUN` runs a
  subroutine, `RETURN` ends the body it stands in.

  Lines are executed in one pass, with one mark per open `IF`, as in the check
  that branches match (`runBlocks`).  The main result is `run_table`: a threshold
  table performs the action of the first row that applies, and nothing else.
-/
import BuildingControl.Erl.RuleTable
import Mathlib.Logic.Function.Basic

namespace BuildingControl.Erl

/-! ## Machines -/

/-- What the lines of a program do to a state, and which conditions hold in it. -/
structure Machine (S : Type) where
  assign : Name → Expression → S → S
  holds : Condition → S → Bool

/-- How far an open `IF` has come. -/
inductive Branch
  /-- The lines of the present branch run. -/
  | running
  /-- No branch has held so far. -/
  | waiting
  /-- A branch has run, or the whole `IF` is skipped. -/
  | over
  deriving DecidableEq

/-- Whether lines inside these branches run. -/
def active (branches : List Branch) : Bool :=
  branches.all (· = .running)

/-- The mark of an `IF`, by whether it is reached and whether its condition holds. -/
def Branch.enter (reached holds : Bool) : Branch :=
  if reached then if holds then .running else .waiting else .over

/-- The mark after an `ELSEIF`, by whether its condition holds; an `ELSE` always does. -/
def Branch.next (holds : Bool) : Branch → Branch
  | .running => .over
  | .waiting => if holds then .running else .waiting
  | .over => .over

namespace Machine

variable {S : Type}

/-- The state after a list of lines, if every subroutine that they run comes to an end. -/
def run (m : Machine S) (call : Name → S → Option S) : List Branch → List Statement → S → Option S
  | _, [], s => some s
  | branches, .assign target value :: rest, s =>
    m.run call branches rest (if active branches then m.assign target value s else s)
  | branches, .ifThen c :: rest, s =>
    m.run call (.enter (active branches) (m.holds c s) :: branches) rest s
  | branch :: outer, .elseIf c :: rest, s =>
    m.run call (branch.next (m.holds c s) :: outer) rest s
  | branch :: outer, .otherwise :: rest, s => m.run call (branch.next true :: outer) rest s
  | _ :: outer, .endIf :: rest, s => m.run call outer rest s
  | branches, .run subroutine :: rest, s =>
    if active branches then (call subroutine s).bind (m.run call branches rest)
    else m.run call branches rest s
  | branches, .leave :: rest, s => if active branches then some s else m.run call branches rest s
  | [], .elseIf _ :: _, _ => none
  | [], .otherwise :: _, _ => none
  | [], .endIf :: _, _ => none

/-- The state after a program, with subroutines inside subroutines up to a depth. -/
def execute (m : Machine S) (subroutine? : Name → Option Code) : Nat → Code → S → Option S
  | 0, _, _ => none
  | depth + 1, body, s =>
    m.run (fun name s => (subroutine? name).bind fun b => m.execute subroutine? depth b s) []
      body.statements s

/-- What an action does. -/
def perform (m : Machine S) (a : Action) (s : S) : S :=
  m.assign a.target a.value s

end Machine

/-! ## Single lines -/

@[simp] theorem active_nil : active [] = true := rfl

@[simp] theorem active_cons (branch : Branch) (outer : List Branch) :
    active (branch :: outer) = (branch = .running && active outer) := by
  simp [active]

namespace Machine

variable {S : Type} (m : Machine S) (call : Name → S → Option S)

/-- An action where lines run. -/
theorem run_action {branches : List Branch} (h : active branches = true) (a : Action)
    (rest : List Statement) (s : S) :
    m.run call branches (a.statement :: rest) s = m.run call branches rest (m.perform a s) := by
  rw [Action.statement, run, if_pos h, perform]

/-- An action where lines are skipped. -/
theorem run_skipped_action {branches : List Branch} (h : active branches = false) (a : Action)
    (rest : List Statement) (s : S) :
    m.run call branches (a.statement :: rest) s = m.run call branches rest s := by
  rw [Action.statement, run, if_neg (by simp [h])]

/-- A branch of a single action. -/
theorem run_guarded {branches : List Branch} (h : active branches = true) (c : Condition)
    (a : Action) (rest : List Statement) (s : S) :
    m.run call branches (.ifThen c :: a.statement :: .endIf :: rest) s =
      m.run call branches rest (if m.holds c s then m.perform a s else s) := by
  rw [run, h]
  cases m.holds c s with
  | true =>
    have reached : active (.running :: branches) = true := by simpa using h
    show m.run call (.running :: branches) _ s = _
    rw [run_action m call reached, run, if_pos rfl]
  | false =>
    have skipped : active (.waiting :: branches) = false := by simp
    show m.run call (.waiting :: branches) _ s = _
    rw [run_skipped_action m call skipped, run, if_neg (by simp)]

end Machine

/-! ## Threshold tables -/

/-- The action of the first of some rows that applies, or the default. -/
def RuleTable.chooseFrom (t : RuleTable) (holds : Condition → Bool) (rows : List Rule) : Action :=
  ((rows.find? fun r => holds (t.condition r)).map Rule.action).getD t.otherwise

/-- The action of the first row that applies, or the default. -/
def RuleTable.choose (t : RuleTable) (holds : Condition → Bool) : Action :=
  t.chooseFrom holds t.rules

/-- The lines of a chain after its first branch. -/
def RuleTable.chainLines (t : RuleTable) (rows : List Rule) : List Statement :=
  t.laterLines rows ++ [.otherwise, t.otherwise.statement, .endIf]

theorem RuleTable.chooseFrom_cons (t : RuleTable) (holds : Condition → Bool) (r : Rule)
    (rows : List Rule) :
    t.chooseFrom holds (r :: rows) =
      if holds (t.condition r) then r.action else t.chooseFrom holds rows := by
  unfold chooseFrom
  by_cases h : holds (t.condition r) = true <;> simp [h]

namespace Machine

variable {S : Type} (m : Machine S) (call : Name → S → Option S)

/-- A chain in which a branch has run already does nothing more. -/
theorem run_chain_of_done (t : RuleTable) {branch : Branch} (h : branch ≠ .waiting)
    (outer : List Branch) (rows : List Rule) (rest : List Statement) (s : S) :
    m.run call (branch :: outer) (t.chainLines rows ++ rest) s = m.run call outer rest s := by
  -- whatever its condition, the next branch finds the chain over
  have done (holds : Bool) : branch.next holds = .over := by
    cases branch <;> simp_all [Branch.next]
  have skipped : active (.over :: outer) = false := by simp
  induction rows generalizing branch with
  | nil =>
    show m.run call (branch :: outer) (.otherwise :: t.otherwise.statement :: .endIf :: rest) s = _
    rw [run, done, run_skipped_action m call skipped, run]
  | cons r rows ih =>
    show m.run call (branch :: outer)
      (.elseIf (t.condition r) :: r.action.statement :: (t.chainLines rows ++ rest)) s = _
    rw [run, done, run_skipped_action m call skipped]
    exact ih (by decide) fun _ => rfl

/-- A chain in which no branch has held so far. -/
theorem run_chain_of_waiting (t : RuleTable) {outer : List Branch} (h : active outer = true)
    (rows : List Rule) (rest : List Statement) (s : S) :
    m.run call (.waiting :: outer) (t.chainLines rows ++ rest) s =
      m.run call outer rest (m.perform (t.chooseFrom (m.holds · s) rows) s) := by
  have reached : active (.running :: outer) = true := by simpa using h
  have skipped : active (.waiting :: outer) = false := by simp
  induction rows with
  | nil =>
    show m.run call (.waiting :: outer) (.otherwise :: t.otherwise.statement :: .endIf :: rest) s = _
    rw [run]
    exact run_action m call reached t.otherwise (.endIf :: rest) s
  | cons r rows ih =>
    show m.run call (.waiting :: outer)
      (.elseIf (t.condition r) :: r.action.statement :: (t.chainLines rows ++ rest)) s = _
    rw [run, RuleTable.chooseFrom_cons]
    cases hr : m.holds (t.condition r) s with
    | true =>
      show m.run call (.running :: outer) _ s = _
      rw [run_action m call reached, run_chain_of_done m call t (by decide), if_pos rfl]
    | false =>
      show m.run call (.waiting :: outer) _ s = _
      rw [run_skipped_action m call skipped, ih]
      rfl

/-- A threshold table performs the action of the first row that applies. -/
theorem run_table (t : RuleTable) {branches : List Branch} (h : active branches = true)
    (rest : List Statement) (s : S) :
    m.run call branches (t.statements ++ rest) s =
      m.run call branches rest (m.perform (t.choose (m.holds · s)) s) := by
  obtain ⟨first, later, hrules⟩ := List.exists_cons_of_ne_nil t.nonempty
  have lines : t.statements ++ rest =
      .ifThen (t.condition first) :: first.action.statement :: (t.chainLines later ++ rest) := by
    simp [RuleTable.statements, hrules, RuleTable.branchLines, RuleTable.chainLines]
  have reached : active (.running :: branches) = true := by simpa using h
  have skipped : active (.waiting :: branches) = false := by simp
  rw [lines, run, h, RuleTable.choose, hrules, RuleTable.chooseFrom_cons]
  cases hf : m.holds (t.condition first) s with
  | true =>
    show m.run call (.running :: branches) _ s = _
    rw [run_action m call reached, run_chain_of_done m call t (by decide), if_pos rfl]
  | false =>
    show m.run call (.waiting :: branches) _ s = _
    rw [run_skipped_action m call skipped, run_chain_of_waiting m call t h]
    rfl

end Machine

end BuildingControl.Erl
