/-
  BuildingControl.Proofs.Erl.Arithmetic

  Arithmetics that programs run over: exact numbers of an ordered field, with
  functions that are left open (`Arithmetic.exact`), and the same with the null value
  beside the numbers (`Arithmetic.withNull`).
-/
import BuildingControl.Proofs.Erl.Effect
import BuildingControl.Proofs.Number.Exact

namespace BuildingControl.Erl

/-- Whether a comparison of elements of a linear order holds. -/
def Comparison.relates {K : Type} [LinearOrder K] : Comparison → K → K → Bool
  | .le, x, y => x ≤ y
  | .lt, x, y => x < y
  | .ge, x, y => y ≤ x
  | .gt, x, y => y < x
  | .eq, x, y => x = y
  | .ne, x, y => x ≠ y

namespace Arithmetic

/-- Exact arithmetic; functions and free conditions are given. -/
def exact {K : Type} [Field K] [LinearOrder K] (call : String → List K → K)
    (test : Expression → Store K → Bool) : Arithmetic K where
  number x := (Number.exact x : ℚ)
  null := 0
  operate
    | .add, x, y => x + y
    | .subtract, x, y => x - y
    | .multiply, x, y => x * y
    | .divide, x, y => x / y
  call := call
  compares c x y := c.relates x (Number.exact y : ℚ)
  test := test

/-- The arithmetic with a null value, from which nothing but null comes and which compares with
    nothing. -/
def withNull {V : Type} (A : Arithmetic V) : Arithmetic (Option V) where
  number x := some (A.number x)
  null := none
  operate op x y := x.bind fun v => y.map (A.operate op v)
  call function vs := (vs.mapM id).map (A.call function)
  compares c x y := x.any fun v => A.compares c v y
  test x σ := A.test x fun k => (σ k).getD A.null

/-- The text of a number that reads back is the number. -/
theorem yields_format_exact {K : Type} [Field K] [LinearOrder K] {call : String → List K → K}
    {test : Expression → Store K → Bool} {σ : Store K} {x : Float} (finite : x.isFinite = true)
    (reads : Number.ReadsBack x) :
    (exact call test).Yields σ (Number.format x) (Number.exact x : ℚ) := by
  obtain ⟨y, read, equal⟩ := reads
  rw [← Number.exact_eq_of_beq equal]
  exact yields_format finite read

end Arithmetic

end BuildingControl.Erl
