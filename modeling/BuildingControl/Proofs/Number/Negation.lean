/-
  BuildingControl.Proofs.Number.Negation

  The negative of a float.  It has the same fields but for the sign, so it is the
  negative number (`exact_neg`).
-/
import BuildingControl.Proofs.Number.Exact
import Mathlib

namespace BuildingControl.Number

open Float.Model (Format UnpackedFloat)
open Float.Model.UnpackedFloat

/-- The bits of a float with the other sign. -/
def flipped (b : BitVec Format.binary64.numBits) : BitVec Format.binary64.numBits :=
  packComponents Format.binary64 (-Sign.ofBitVec (unpackSign b)) (unpackExponent b)
    (unpackMantissa b)

/-- The other sign makes the negative of a number. -/
theorem unpack_flipped {b : BitVec Format.binary64.numBits} (number : isNaNBits b = false) :
    unpack Format.binary64 (flipped b) = (unpack Format.binary64 b).neg := by
  have isNumber : ¬(unpackExponent b = -1#_ ∧ unpackMantissa b ≠ 0#_) := by
    simpa [isNaNBits] using number
  unfold unpack flipped
  simp only [unpackExponent_packComponents, unpackMantissa_packComponents,
    unpackSign_packComponents, Sign.ofBitVec_toBitVec]
  split
  · split
    · rfl
    · rfl
  · split
    · split
      · rfl
      · rfl
    · rfl

/-- Negation changes the sign and nothing else. -/
theorem unpack_neg (x : Float) : (-x).toModel.unpack = x.toModel.unpack.neg := by
  obtain ⟨⟨⟨bits⟩, valid⟩⟩ := x
  let b : BitVec Format.binary64.numBits := bits
  show unpack Format.binary64 (pack Format.binary64 (unpack Format.binary64 b).neg) =
    (unpack Format.binary64 b).neg
  cases number : isNaNBits b with
  | true =>
    -- there is but one float that is not a number, and its sign does not count
    have fields : unpackExponent b = -1#_ ∧ unpackMantissa b ≠ 0#_ := by
      simpa [isNaNBits] using number
    have same : b = packedNaN Format.binary64 := valid.eq_packedNaN fields.1 fields.2
    rw [same, unpack_packedNaN]
    exact unpack_packedNaN
  | false =>
    have valid : Format.binary64.Valid (flipped b) := by
      constructor
      intro highest part
      simp only [flipped, unpackExponent_packComponents, unpackMantissa_packComponents] at highest part
      simp [isNaNBits, highest, part] at number
    rw [← unpack_flipped number, pack_unpack_of_valid valid]

/-- The negative of a float is the negative number. -/
@[simp] theorem exact_neg (x : Float) : exact (-x) = -exact x := by
  rw [exact, unpack_neg, exact]
  rcases x.toModel.unpack with ⟨_ | _⟩ | _ | ⟨_ | _⟩ | ⟨_ | _, m, e, hm⟩ <;>
    simp [neg, exactOf]

end BuildingControl.Number
