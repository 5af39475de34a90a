/-
  BuildingControl.Proofs.Number.Exact

  The rational number that a float is.  Equal floats are the same number, the two
  zeros included; what is not finite counts as zero.
-/
import BuildingControl.Proofs.Number.Order
import Mathlib.Algebra.Order.Field.Rat
import Mathlib.Tactic.NormNum

namespace BuildingControl.Number

open Float.Model

/-- The value of a finite number of this sign, significand and exponent. -/
def exactOf : UnpackedFloat → ℚ
  | .finite .positive m e _ => m * 2 ^ e
  | .finite .negative m e _ => -(m * 2 ^ e)
  | _ => 0

/-- The number that a float is. -/
def exact (x : Float) : ℚ :=
  exactOf x.toModel.unpack

/-- Equal floats are one number. -/
theorem exact_eq_of_beq {x y : Float} (h : (x == y) = true) : exact x = exact y := by
  have same : x.toModel.unpack.beq y.toModel.unpack = true := h
  unfold exact
  rcases eq_or_zero_of_beq same with equal | ⟨⟨s, hx⟩, t, hy⟩
  · rw [equal]
  · rw [hx, hy]
    rfl

/-- The text of a number reads back as an equal number. -/
def ReadsBack (x : Float) : Prop :=
  ∃ y, Decimal.read (format x) = .ok y ∧ (y == x) = true

theorem readsBack_iff {x : Float} :
    ReadsBack x ↔ (Decimal.read (format x)).toOption.any (· == x) = true := by
  rw [ReadsBack]
  cases Decimal.read (format x) <;> simp [Except.toOption]

instance (x : Float) : Decidable (ReadsBack x) :=
  decidable_of_iff _ readsBack_iff.symm

@[simp] theorem exact_zero : exact 0.0 = 0 := by
  decide +kernel

@[simp] theorem exact_one : exact 1.0 = 1 := by
  decide +kernel

example : exact (-0.75) = -3 / 4 := by decide +kernel

end BuildingControl.Number
