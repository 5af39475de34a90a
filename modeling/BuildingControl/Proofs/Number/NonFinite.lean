/-
  BuildingControl.Proofs.Number.NonFinite

  The floats that are not finite: two infinities, and one that is no number.
-/
import BuildingControl.Number
import Mathlib.Algebra.Group.Nat.Defs

namespace BuildingControl.Number

open Float.Model

/-- Above all numbers. -/
def infinity : Float := Float.ofBits 0x7FF0000000000000

/-- Below all numbers. -/
def negInfinity : Float := Float.ofBits 0xFFF0000000000000

/-- Not a number. -/
def notANumber : Float := Float.ofBits 0x7FF8000000000000

theorem isFinite_infinity : infinity.isFinite = false := by decide +kernel

theorem eq_of_toBits_eq {x y : Float} (h : x.toModel.toBits = y.toModel.toBits) : x = y := by
  obtain ⟨⟨bits, _⟩⟩ := x
  obtain ⟨⟨bits', _⟩⟩ := y
  cases h
  rfl

/-! ## The fields of a float -/

theorem toNat_unpackExponent (b : BitVec 64) :
    (@UnpackedFloat.unpackExponent Format.binary64 b).toNat =
      b.toNat / 2 ^ 52 % 2 ^ 11 := by
  simp [UnpackedFloat.unpackExponent, Nat.shiftRight_eq_div_pow]

theorem toNat_unpackMantissa (b : BitVec 64) :
    (@UnpackedFloat.unpackMantissa Format.binary64 b).toNat = b.toNat % 2 ^ 52 := by
  simp [UnpackedFloat.unpackMantissa]

/-- A float that is not finite has the highest exponent. -/
theorem exponent_of_not_isFinite {b : BitVec 64}
    (h : (UnpackedFloat.unpack Format.binary64 b).isFinite = false) :
    @UnpackedFloat.unpackExponent Format.binary64 b = -1#_ := by
  apply Decidable.byContradiction
  intro finite
  unfold UnpackedFloat.unpack at h
  dsimp only at h
  rw [if_neg finite] at h
  by_cases lowest : @UnpackedFloat.unpackExponent Format.binary64 b = 0#_
  · rw [if_pos lowest] at h
    by_cases whole : @UnpackedFloat.unpackMantissa Format.binary64 b = 0#_
    · rw [dif_pos whole] at h
      cases h
    · rw [dif_neg whole] at h
      cases h
  · rw [if_neg lowest] at h
    cases h

/-- All floats that are not finite; there is but one that is not a number. -/
theorem eq_of_not_isFinite {x : Float} (h : x.isFinite = false) :
    x = infinity ∨ x = negInfinity ∨ x = notANumber := by
  obtain ⟨⟨⟨b⟩, valid⟩⟩ := x
  have highest := exponent_of_not_isFinite (b := b) h
  have exponent : b.toNat / 2 ^ 52 % 2 ^ 11 = 2047 := by
    rw [← toNat_unpackExponent, highest]
    rfl
  by_cases whole : b.toNat % 2 ^ 52 = 0
  · have two : b.toNat = 0x7FF0000000000000 ∨ b.toNat = 0xFFF0000000000000 := by
      have bound : b.toNat < 2 ^ 64 := b.isLt
      omega
    rcases two with hb | hb
    · exact .inl (eq_of_toBits_eq (UInt64.toNat_inj.1 hb))
    · exact .inr (.inl (eq_of_toBits_eq (UInt64.toNat_inj.1 hb)))
  · have part : @UnpackedFloat.unpackMantissa Format.binary64 b ≠ 0#_ := by
      intro zero
      rw [← toNat_unpackMantissa, zero] at whole
      exact whole rfl
    have hb : b = UnpackedFloat.packedNaN Format.binary64 := valid.eq_packedNaN highest part
    exact .inr (.inr (eq_of_toBits_eq (UInt64.toBitVec_inj.1 hb)))

end BuildingControl.Number
