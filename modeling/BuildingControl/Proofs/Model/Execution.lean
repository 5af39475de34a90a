/-
  BuildingControl.Proofs.Model.Execution

  Programs of a model at work on variables that hold values.  A variable is
  looked up by its key, so the spelling of its name does not matter.  What an
  expression comes to is left to the simulation (`Evaluation`); the conventions
  that program text relies on are `Evaluation.Usual`.
-/
import BuildingControl.Model.Basic
import BuildingControl.Proofs.Erl.Execution
import BuildingControl.Proofs.Erl.Token
import Mathlib.Logic.Function.Iterate

namespace BuildingControl

open Erl

/-! ## Variables with values -/

/-- The values of variables, by the keys of their names. -/
abbrev Erl.Store (V : Type) := String → V

/-- What expressions and comparisons come to. -/
structure Erl.Evaluation (V : Type) where
  value : Expression → Store V → V
  compares : Comparison → V → Float → Bool
  test : Expression → Store V → Bool

/-- The machine that keeps the values of variables. -/
def Erl.Evaluation.machine {V : Type} (e : Evaluation V) : Machine (Store V) where
  assign target x σ := Function.update σ target.key (e.value x σ)
  holds c σ :=
    match c with
    | .compare subject comparison boundary =>
      e.compares comparison (σ subject.key) boundary.value
    | .expression x => e.test x σ

/-- Whether a comparison of two numbers holds. -/
def Erl.Comparison.holds : Comparison → Float → Float → Bool
  | .le, x, y => x ≤ y
  | .lt, x, y => x < y
  | .ge, x, y => y ≤ x
  | .gt, x, y => y < x
  | .eq, x, y => x == y
  | .ne, x, y => x != y

/-- The conventions of program text: a name alone is the value of the variable, the text of a
    number is that number, as far as the given numbers go, and comparisons are those of numbers.
    What functions come to is left open. -/
structure Erl.Evaluation.Usual (e : Evaluation Float) (numbers : List Float) : Prop where
  name : ∀ (n : Name) (x : Expression), isBuiltin n.text = false → x.text = n.text →
    ∀ σ, e.value x σ = σ n.key
  number : ∀ y ∈ numbers, ∀ x : Expression, x.text = Number.format y → ∀ σ, e.value x σ = y
  compares : ∀ comparison x y, e.compares comparison x y = comparison.holds x y

/-- The value of a name or of a number; every other expression comes to zero. -/
def Erl.Evaluation.literal : Evaluation Float where
  value x σ :=
    if x.text.toList.head?.any startsName then σ (Text.asciiUpper x.text)
    else (Decimal.read x.text).toOption.getD 0
  compares comparison x y := comparison.holds x y
  test _ _ := false

/-- The simple evaluation is as usual for numbers whose text reads back. -/
theorem Erl.Evaluation.usual_literal {numbers : List Float}
    (reads : ∀ y ∈ numbers, ((Number.format y).toList.head?.any startsName) = false ∧
      (Decimal.read (Number.format y)).toOption = some y) :
    literal.Usual numbers where
  name n x _ hx σ := by
    obtain ⟨c, cs, hcs, letter, -⟩ := n.shape
    have starts : startsName c = true := by simp [startsName, letter]
    simp [literal, hx, hcs, starts, Name.key]
  number y hy x hx σ := by
    obtain ⟨start, value⟩ := reads y hy
    simp [literal, hx, start, value]
  compares _ _ _ := rfl

/-! ## Programs of a model -/

namespace Model

/-- The body of the subroutine of this name. -/
def subroutine? (m : Model) (name : Name) : Option Code :=
  (m.subroutines.find? fun p => p.name.key = name.key).map Program.body

/-- The state after the subroutine of this name, with subroutines inside it up to a depth. -/
def call {S : Type} (m : Model) (machine : Machine S) (depth : Nat) (name : Name) (s : S) :
    Option S :=
  (m.subroutine? name).bind fun b => machine.execute m.subroutine? depth b s

/-- The state after the program of this name, with subroutines inside subroutines up to a
    depth. -/
def runProgram {S : Type} (m : Model) (machine : Machine S) (depth : Nat) (name : String) (s : S) :
    Option S :=
  (m.programs.find? fun p => Text.sameLetters p.name.text name).bind fun p =>
    machine.execute m.subroutine? depth p.body s

/-- The state after the programs of these names, one after the other. -/
def runPrograms {S : Type} (m : Model) (machine : Machine S) (depth : Nat) (names : List String)
    (s : S) : Option S :=
  names.foldlM (fun s name => m.runProgram machine depth name s) s

/-- A program that takes each state with some property to another one, over and over. -/
theorem runPrograms_replicate {S : Type} {m : Model} {machine : Machine S} {depth : Nat}
    {name : String} {P : S → Prop} {f : S → S}
    (step : ∀ s, P s → m.runProgram machine depth name s = some (f s) ∧ P (f s)) (rounds : Nat)
    {s : S} (h : P s) :
    m.runPrograms machine depth (List.replicate rounds name) s = some (f^[rounds] s) := by
  induction rounds generalizing s with
  | zero => rfl
  | succ rounds ih =>
    obtain ⟨ran, next⟩ := step s h
    rw [List.replicate_succ, runPrograms, List.foldlM_cons, ran]
    exact ih next

/-- A program runs its lines, subroutines one level down. -/
theorem runProgram_of_programs {S : Type} {m : Model} {p : Program} (h : m.programs = [p])
    {name : String} (hn : p.name.text = name) (machine : Machine S) (depth : Nat) (s : S) :
    m.runProgram machine (depth + 1) name s =
      machine.run (m.call machine depth) [] p.body.statements s := by
  have named : Text.sameLetters p.name.text name = true := by rw [hn, Text.sameLetters_iff]
  have found : [p].find? (fun p => Text.sameLetters p.name.text name) = some p := by simp [named]
  rw [runProgram, h, found]
  rfl

end Model

end BuildingControl
