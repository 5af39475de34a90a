/-
  BuildingControl.Proofs.Number.Decimals

  Floats made of decimals, and rounded to them.  A whole number of 53 bits is a finite
  float, and a decimal is never read as what is no number.  A finite float that is
  rounded to decimal places stays finite exactly when it can be scaled to them
  (`isFinite_roundTo_iff`), though dividing by the scale again would bring it back.
-/
import BuildingControl.Proofs.Number.Overflow

namespace BuildingControl.Number

open Float.Model (Format UnpackedFloat)
open Float.Model.UnpackedFloat

/-! ## Whole numbers -/

/-- A finite float is below the bound of overflow. -/
theorem abs_exact_lt_overflow {x : Float} (h : x.isFinite = true) : |exact x| < overflow := by
  rcases finite_cases h with ⟨s, h⟩ | ⟨s, m, e, pos, h⟩
  · rw [exact_of_zero h, abs_zero]
    exact overflow_pos
  · have placed := placed_of_unpack h
    rw [abs_exact h]
    exact value_lt_overflow placed.bits placed.highest

theorem isFinite_toFloat (n : UInt64) : n.toFloat.isFinite = true := by
  show (stored (UnpackedFloat.normalize Format.binary64 n.toNat 0 .positive)).isFinite = true
  rw [normalize_eq]
  split
  · rw [stored_zero]
    rfl
  · refine (isFinite_stored_round_iff (by omega) (by omega)).2 ?_
    have bound : (n.toNat : ℚ) < 2 ^ (64 : ℤ) := by exact_mod_cast n.toNat_lt
    rw [zpow_zero, mul_one, Int.natAbs_natCast]
    exact bound.trans_le (two_zpow_le_overflow (by omega))

/-- The powers of ten that are floats. -/
theorem powers (p : Float) (h : p ∈ Float.exactlyRepresentablePowersOfTen) :
    p.isFinite = true ∧ exact p ≠ 0 := by
  have all : ∀ p ∈ Float.exactlyRepresentablePowersOfTen, p.isFinite = true ∧ exact p ≠ 0 := by
    decide +kernel
  exact all p h

/-- A decimal is a number. -/
theorem isNaN_ofScientific (m : ℕ) (negative : Bool) (e : ℕ) :
    (Float.ofScientific m negative e).isNaN = false := by
  unfold Float.ofScientific
  -- few digits are a whole number, times or over a power of ten that is a float
  split
  · next small =>
    have inside : e < Float.exactlyRepresentablePowersOfTen.size := by
      have size : Float.exactlyRepresentablePowersOfTen.size = 23 := rfl
      omega
    obtain ⟨finite, nonzero⟩ := powers _ (Array.getElem_mem inside)
    have whole := isNaN_of_isFinite (isFinite_toFloat m.toUInt64)
    cases negative with
    | true => exact isNaN_div finite nonzero whole
    | false => exact isNaN_mul finite nonzero whole
  · dsimp only
    generalize (if negative = true then Int.negOfNat e else Int.ofNat e) = scale
    show (stored (ofScientific Format.binary64 m scale)).isNaN = false
    unfold ofScientific
    split
    · rw [stored_zero]
      rfl
    split
    · rw [stored_infinity]
      rfl
    split
    · rw [stored_zero]
      rfl
    split
    · exact isNaN_stored _ _ _ _
    · exact isNaN_stored _ _ _ _

/-- A whole number that a float can hold is finite. -/
theorem isFinite_ofNat {n : ℕ} (h : n ≤ 2 ^ 53) : (Float.ofNat n).isFinite = true := by
  show (Float.ofScientific n false 0).isFinite = true
  rcases Nat.lt_or_eq_of_le h with less | rfl
  · unfold Float.ofScientific
    rw [dif_pos ⟨less, by omega⟩]
    show (n.toUInt64.toFloat * Float.ofBits 0x3FF0000000000000).isFinite = true
    have whole := isFinite_toFloat n.toUInt64
    have one : exact (Float.ofBits 0x3FF0000000000000) = 1 := by decide +kernel
    rw [isFinite_mul_iff whole (by decide +kernel), one, mul_one]
    exact abs_exact_lt_overflow whole
  · decide +kernel

/-! ## Rounding to whole numbers -/

theorem isFinite_withSign (negative : Bool) (x : Float) :
    (Decimal.withSign negative x).isFinite = x.isFinite := by
  cases negative with
  | false => rfl
  | true =>
    show (-x).toModel.unpack.isFinite = x.toModel.unpack.isFinite
    rw [unpack_neg]
    cases x.toModel.unpack <;> rfl

theorem mant_ofFloat_lt (x : Float) : (Decimal.Binary.ofFloat x).mant < 2 ^ 53 := by
  unfold Decimal.Binary.ofFloat
  have part := Nat.mod_lt x.toBits.toNat (Nat.two_pow_pos 52)
  dsimp only
  split
  · show x.toBits.toNat % 2 ^ 52 < 2 ^ 53
    omega
  · show 2 ^ 52 + x.toBits.toNat % 2 ^ 52 < 2 ^ 53
    omega

/-- A float rounded to a whole number is as finite as it was. -/
theorem isFinite_roundHalfAway (x : Float) : (roundHalfAway x).isFinite = x.isFinite := by
  unfold roundHalfAway
  split
  · next finite =>
    dsimp only
    split
    · rfl
    · rw [isFinite_withSign, finite]
      have bits := mant_ofFloat_lt x
      generalize (Decimal.Binary.ofFloat x).mant = m at bits ⊢
      have positive : 0 < Nat.pow 2 (-(Decimal.Binary.ofFloat x).exp).toNat := Nat.two_pow_pos _
      generalize Nat.pow 2 (-(Decimal.Binary.ofFloat x).exp).toNat = u at positive ⊢
      exact isFinite_ofNat (Nat.div_le_of_le_mul (by omega))
  · rfl

theorem roundHalfAway_of_not_isFinite {x : Float} (h : x.isFinite = false) :
    roundHalfAway x = x := by
  rw [roundHalfAway, h]
  rfl

/-- A number rounded to a whole one is a number. -/
theorem isNaN_roundHalfAway {x : Float} (h : x.isNaN = false) : (roundHalfAway x).isNaN = false := by
  cases finite : x.isFinite with
  | true => exact isNaN_of_isFinite ((isFinite_roundHalfAway x).trans finite)
  | false => rwa [roundHalfAway_of_not_isFinite finite]

/-! ## Rounding to decimal places -/

section Places

variable {x : Float} {places : ℤ} (scale : (tenTo places).isFinite = true)
  (two : 2 ≤ exact (tenTo places))

include scale two

/-- A float rounded to decimal places is finite exactly when it can be scaled to them. -/
theorem isFinite_roundTo_iff : (roundTo x places).isFinite = true ↔
    x.isFinite = true ∧ |exact x * exact (tenTo places)| < overflow := by
  have nonzero : exact (tenTo places) ≠ 0 := by linarith
  constructor
  · -- what is infinite after scaling is still infinite when it is scaled back
    intro finite
    have rounded := isFinite_of_div scale nonzero finite
    rw [isFinite_roundHalfAway] at rounded
    have whole := isFinite_of_mul scale nonzero rounded
    exact ⟨whole, (isFinite_mul_iff whole scale).1 rounded⟩
  · rintro ⟨whole, small⟩
    refine isFinite_div ?_ scale (two.trans (le_abs_self _))
    rw [isFinite_roundHalfAway]
    exact (isFinite_mul_iff whole scale).2 small

/-- A number rounded to decimal places is a number. -/
theorem isNaN_roundTo (number : x.isNaN = false) : (roundTo x places).isNaN = false := by
  have nonzero : exact (tenTo places) ≠ 0 := by linarith
  exact isNaN_div scale nonzero (isNaN_roundHalfAway (isNaN_mul scale nonzero number))

/-- A number that cannot be scaled is rounded to infinity. -/
theorem roundTo_eq_infinity (whole : x.isFinite = true)
    (large : overflow ≤ exact x * exact (tenTo places)) : roundTo x places = infinity := by
  rw [roundTo, mul_eq_infinity whole scale large, roundHalfAway_of_not_isFinite (by decide +kernel)]
  exact infinity_div scale (by linarith)

end Places

end BuildingControl.Number
