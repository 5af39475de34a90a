/-
  BuildingControl.Proofs.Number.Fields

  Finite floats by the fields of their bits.  What a writer reads off the bits is the
  sign, the significand and the exponent of the number (`signBit_of_unpack`,
  `ofFloat_of_unpack`), so equal floats have one text (`format_eq_of_beq`), and a minus
  stands in front of a text exactly when the number is below zero (`format_cases`).
-/
import BuildingControl.Proofs.Number.Overflow
import BuildingControl.Proofs.Number.Written

namespace BuildingControl.Number

open Decimal
open Float.Model (Format UnpackedFloat)
open Float.Model.UnpackedFloat

/-! ## Fields -/

/-- Where the parts of a finite number stand among its bits. -/
theorem fields_of_unpack {b : BitVec 64} {s : Sign} {m : ℕ} {e : ℤ} {pos : 0 < m}
    (h : unpack Format.binary64 b = .finite s m e pos) :
    s = Sign.ofBitVec (@unpackSign Format.binary64 b) ∧
      (b.toNat / 2 ^ 52 % 2 ^ 11 = 0 ∧ m = b.toNat % 2 ^ 52 ∧ e = -1074 ∨
        b.toNat / 2 ^ 52 % 2 ^ 11 ≠ 0 ∧ m = 2 ^ 52 + b.toNat % 2 ^ 52 ∧
          e = (b.toNat / 2 ^ 52 % 2 ^ 11 : ℕ) - 1075) := by
  have bits : (@unpackMantissa Format.binary64 b).toNat < 2 ^ 52 :=
    (@unpackMantissa Format.binary64 b).isLt
  have bias : (Format.binary64.exponentBias : ℤ) = 1023 := rfl
  rw [← toNat_unpackExponent, ← toNat_unpackMantissa]
  unfold unpack at h
  dsimp only at h
  by_cases highest : @unpackExponent Format.binary64 b = -1#_
  · rw [if_pos highest] at h
    split at h <;> cases h
  rw [if_neg highest] at h
  by_cases lowest : @unpackExponent Format.binary64 b = 0#_
  · rw [if_pos lowest] at h
    by_cases whole : @unpackMantissa Format.binary64 b = 0#_
    · rw [dif_pos whole] at h
      cases h
    · rw [dif_neg whole, finite.injEq] at h
      obtain ⟨rfl, rfl, rfl⟩ := h
      have zero : (@unpackExponent Format.binary64 b).toNat = 0 := by
        rw [lowest]
        rfl
      exact ⟨rfl, .inl ⟨zero, rfl, by rw [zero]; rfl⟩⟩
  · rw [if_neg lowest, finite.injEq] at h
    obtain ⟨rfl, rfl, rfl⟩ := h
    have above : (@unpackExponent Format.binary64 b).toNat ≠ 0 := fun zero =>
      lowest (BitVec.eq_of_toNat_eq zero)
    refine ⟨rfl, .inr ⟨above, ?_, by omega⟩⟩
    -- the bit in front is that of the exponent
    rw [BitVec.toNat_append, ← Nat.shiftLeft_add_eq_or_of_lt bits]
    rfl

section Finite

variable {x : Float} {s : Sign} {m : ℕ} {e : ℤ} {pos : 0 < m}
  (h : x.toModel.unpack = .finite s m e pos)

include h

/-- What a writer reads off the bits of a finite float. -/
theorem ofFloat_of_unpack :
    (Binary.ofFloat x).mant = m ∧ (Binary.ofFloat x).exp = e ∧
      ((Binary.ofFloat x).lowHalf = true → m = 2 ^ 52) := by
  obtain ⟨-, fields⟩ := fields_of_unpack (b := x.toBits.toBitVec) h
  unfold Binary.ofFloat
  dsimp only
  rcases fields with ⟨lowest, mant, exp⟩ | ⟨above, mant, exp⟩
  · have field : x.toBits.toNat / Nat.pow 2 52 % Nat.pow 2 11 = 0 := lowest
    rw [if_pos field]
    exact ⟨mant.symm, exp.symm, nofun⟩
  · have field : x.toBits.toNat / Nat.pow 2 52 % Nat.pow 2 11 ≠ 0 := above
    rw [if_neg field]
    refine ⟨mant.symm, exp.symm, fun half => ?_⟩
    rw [Bool.and_eq_true, beq_iff_eq] at half
    have none : x.toBits.toBitVec.toNat % 2 ^ 52 = 0 := half.1
    rw [mant, none, Nat.add_zero]

theorem signBit_of_unpack : signBit x = true ↔ s = .negative := by
  obtain ⟨rfl, -⟩ := fields_of_unpack (b := x.toBits.toBitVec) h
  have bound : x.toBits.toNat < 2 ^ 64 := x.toBits.toBitVec.isLt
  have bit : (@unpackSign Format.binary64 x.toBits.toBitVec).toNat =
      x.toBits.toNat / 2 ^ 63 % 2 := by
    simp [unpackSign, Nat.shiftRight_eq_div_pow]
  have set : signBit x = true ↔ 2 ^ 63 ≤ x.toBits.toNat := decide_eq_true_iff
  rw [set, Sign.ofBitVec]
  split
  · next clear =>
    have zero : x.toBits.toNat / 2 ^ 63 % 2 = 0 := by
      rw [← bit, clear]
      rfl
    simp only [reduceCtorEq, iff_false]
    omega
  · next set =>
    have one : x.toBits.toNat / 2 ^ 63 % 2 ≠ 0 := by
      rw [← bit]
      exact fun zero => set (BitVec.eq_of_toNat_eq zero)
    simp only [iff_true]
    omega

end Finite

/-- Equal fields are equal floats. -/
theorem eq_of_unpack {x y : Float} (h : x.toModel.unpack = y.toModel.unpack) : x = y := by
  have packed (z : Float) : pack Format.binary64 z.toModel.unpack = z.toModel.toBits.toBitVec :=
    pack_unpack_of_valid z.toModel.valid
  refine eq_of_toBits_eq (UInt64.toBitVec_inj.1 ?_)
  rw [← packed x, h, packed y]

/-! ## Order -/

/-- Of significands at their places the one at the lower place is smaller. -/
theorem Placed.value_le {m n : ℕ} {e f : ℤ} (hm : Placed m e) (hn : Placed n f)
    (h : e < f ∨ e = f ∧ m ≤ n) : (m : ℚ) * 2 ^ e ≤ n * 2 ^ f := by
  rcases h with lower | ⟨rfl, less⟩
  · have full : 2 ^ 52 ≤ n := hn.full.resolve_right (by have := hm.lowest; omega)
    have bits : (m : ℚ) ≤ 2 ^ 53 := by exact_mod_cast hm.bits.le
    have full' : (2 ^ 52 : ℚ) ≤ n := by exact_mod_cast full
    calc (m : ℚ) * 2 ^ e
        ≤ 2 ^ 53 * 2 ^ e := by gcongr
      _ = 2 ^ 52 * 2 ^ (e + 1) := by
        rw [zpow_add_one₀ two_ne_zero]
        ring
      _ ≤ n * 2 ^ f := by
        gcongr
        · exact one_le_two
        · omega
  · gcongr

/-- Finite floats are ordered as the numbers that they are. -/
theorem exact_le_of_le {x y : Float} (hx : x.isFinite = true) (hy : y.isFinite = true)
    (h : x ≤ y) : exact x ≤ exact y := by
  obtain ⟨a, b, ha, hb, le⟩ := le_iff_rank.1 h
  rw [rank] at ha hb
  have size (m : ℕ) (e : ℤ) : (0 : ℚ) ≤ m * 2 ^ e := by positivity
  -- ranks compare the signs first, then the places, then the significands
  rcases finite_cases hx with ⟨s, u⟩ | ⟨s, m, e, pos, u⟩ <;>
  rcases finite_cases hy with ⟨t, v⟩ | ⟨t, n, f, npos, v⟩ <;>
  rw [u] at ha <;>
  rw [v] at hb
  · rw [exact_of_zero u, exact_of_zero v]
  · rw [exact_of_zero u, exact_of_unpack v]
    cases t with
    | positive => simpa [unit] using size n f
    | negative =>
      cases ha
      cases hb
      simp [Prod.Lex.le_iff] at le
  · rw [exact_of_unpack u, exact_of_zero v]
    cases s with
    | positive =>
      cases ha
      cases hb
      simp [Prod.Lex.le_iff] at le
    | negative => simpa [unit] using size m e
  · have hm := placed_of_unpack u
    have hn := placed_of_unpack v
    rw [exact_of_unpack u, exact_of_unpack v]
    cases s with
    | positive =>
      cases ha
      cases t with
      | positive =>
        cases hb
        have sizes := hm.value_le hn (by simpa [Prod.Lex.le_iff] using le)
        simpa [unit] using sizes
      | negative =>
        cases hb
        simp [Prod.Lex.le_iff] at le
    | negative =>
      cases ha
      cases t with
      | positive =>
        simp only [unit]
        linarith [size m e, size n f]
      | negative =>
        cases hb
        have sizes := hn.value_le hm (by
          simp [Prod.Lex.le_iff] at le
          omega)
        simpa [unit] using sizes

/-! ## Texts -/

theorem beq_zero_iff {x : Float} : (x == 0) = true ↔ ∃ s, x.toModel.unpack = .zero s := by
  have zero : (0 : Float).toModel.unpack = .zero .positive := rfl
  rw [beq_eq_compare, zero]
  cases x.toModel.unpack with
  | notANumber => simp [UnpackedFloat.compare]
  | infinity s => cases s <;> simp [UnpackedFloat.compare]
  | zero s => simp [UnpackedFloat.compare]
  | finite s m e pos => cases s <;> simp [UnpackedFloat.compare]

theorem beq_zero_of_finite {x : Float} {s : Sign} {m : ℕ} {e : ℤ} {pos : 0 < m}
    (h : x.toModel.unpack = .finite s m e pos) : (x == 0) = false := by
  rw [Bool.eq_false_iff, Ne, beq_zero_iff, h]
  simp

/-- Zero has one text, whatever its sign. -/
theorem format_of_zero {x : Float} {s : Sign} (h : x.toModel.unpack = .zero s) :
    format x = "0.0" := by
  have finite : x.isFinite = true := by
    show x.toModel.unpack.isFinite = true
    rw [h]
    rfl
  have zero : (x == 0) = true := beq_zero_iff.2 ⟨s, h⟩
  rw [format, Layout.write, Layout.chars, Layout.magnitude, isNaN_of_isFinite finite,
    isInf_of_isFinite finite, zero]
  simp [programLayout]
  rfl

/-- Equal floats have the same text. -/
theorem format_eq_of_beq {x y : Float} (h : (x == y) = true) : format x = format y := by
  rcases eq_or_zero_of_beq (u := x.toModel.unpack) h with same | ⟨⟨s, hx⟩, ⟨t, hy⟩⟩
  · rw [eq_of_unpack same]
  · rw [format_of_zero hx, format_of_zero hy]

/-- The text of a finite number is that of its size, with a minus if it is below zero. -/
theorem format_cases {x : Float} (h : x.isFinite = true) :
    0 ≤ exact x ∧ (format x).toList = programLayout.magnitude x ∨
      exact x < 0 ∧ (format x).toList = '-' :: programLayout.magnitude x := by
  have written : (format x).toList = programLayout.chars x := toList_write programLayout x
  rw [written, Layout.chars, if_neg (ne_true_of_eq_false (isNaN_of_isFinite h)),
    isInf_of_isFinite h]
  rcases finite_cases h with ⟨s, u⟩ | ⟨s, m, e, pos, u⟩
  · rw [exact_of_zero u, beq_zero_iff.2 ⟨s, u⟩]
    simp [programLayout]
  · have size : (0 : ℚ) < m * 2 ^ e := by positivity
    rw [exact_of_unpack u, beq_zero_of_finite u]
    cases s with
    | positive =>
      have clear : signBit x = false := by
        rw [Bool.eq_false_iff, Ne, signBit_of_unpack u]
        simp
      left
      simpa [clear, unit] using size.le
    | negative =>
      have set : signBit x = true := (signBit_of_unpack u).2 rfl
      right
      simpa [set, unit, programLayout] using size

end BuildingControl.Number
