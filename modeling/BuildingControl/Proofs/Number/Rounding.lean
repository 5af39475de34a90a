/-
  BuildingControl.Proofs.Number.Rounding

  How a result of arithmetic becomes a float.  Its significand is brought to a
  place where it has at most 53 bits, rounded there, and stored; a place above
  those of the floats stands for infinity.  So a result is a number of its sign or
  the infinity of that sign, never what is no number (`stored_cases`).  A result that
  is known exactly is infinite from half a unit above the largest float on, and from
  there only (`isFinite_stored_iff`).
-/
import BuildingControl.Proofs.Number.Negation

namespace BuildingControl.Number

open Float.Model (Format UnpackedFloat totalExponent)
open Float.Model.UnpackedFloat

/-! ## Fields -/

/-- A significand and an exponent as finite floats have them: as many bits as there can be, unless
    the exponent is the lowest. -/
structure Placed (m : ℕ) (e : ℤ) : Prop where
  bits : m < 2 ^ 53
  lowest : -1074 ≤ e
  highest : e ≤ 971
  full : 2 ^ 52 ≤ m ∨ e = -1074

/-- Fields whose exponent is not the highest are those of a finite number. -/
theorem unpack_packComponents {s : Sign} {field : BitVec 11} {part : BitVec 52}
    (lower : field.toNat < 2047) :
    unpack Format.binary64 (packComponents Format.binary64 s field part) = .zero s ∨
      ∃ m e pos, unpack Format.binary64 (packComponents Format.binary64 s field part) =
        .finite s m e pos ∧ Placed m e ∧ e = max ((field.toNat : ℤ) - 1075) (-1074) := by
  have notHighest : field ≠ -1#11 := by
    rintro rfl
    exact absurd lower (by decide)
  have bits : part.toNat < 2 ^ 52 := part.isLt
  unfold unpack
  simp only [unpackExponent_packComponents, unpackMantissa_packComponents,
    unpackSign_packComponents, Sign.ofBitVec_toBitVec]
  rw [if_neg notHighest]
  by_cases lowest : field = 0#11
  · -- with the lowest exponent the stored bits are the whole significand
    rw [if_pos lowest]
    by_cases whole : part = 0#52
    · exact .inl (dif_pos whole)
    · have pos : 0 < part.toNat := by
        have nonzero : part.toNat ≠ (0#52).toNat := mt BitVec.toNat_inj.1 whole
        rw [BitVec.toNat_zero] at nonzero
        omega
      refine .inr ⟨part.toNat, -1074, pos, ?_, ⟨by omega, by omega, by omega, .inr rfl⟩, ?_⟩
      · rw [dif_neg whole, lowest]
        rfl
      · rw [lowest]
        rfl
  · -- any other exponent puts a bit in front of those that are stored
    rw [if_neg lowest]
    have above : field.toNat ≠ (0#11).toNat := mt BitVec.toNat_inj.1 lowest
    rw [BitVec.toNat_zero] at above
    have significand : (1#1 ++ part).toNat = 2 ^ 52 + part.toNat := by
      rw [BitVec.toNat_append, ← Nat.shiftLeft_add_eq_or_of_lt bits]
      rfl
    have exponent : (field.toNat : ℤ) - (Format.binary64.exponentBias + (52 : ℕ)) =
        field.toNat - 1075 := by
      have bias : (Format.binary64.exponentBias : ℤ) = 1023 := rfl
      omega
    refine .inr ⟨2 ^ 52 + part.toNat, field.toNat - 1075, by omega, ?_,
      ⟨by omega, by omega, by omega, .inl (by omega)⟩, by omega⟩
    rw [finite.injEq]
    exact ⟨rfl, significand, exponent⟩

/-- A finite float has its bits in place. -/
theorem placed_of_unpack {x : Float} {s : Sign} {m : ℕ} {e : ℤ} {pos : 0 < m}
    (h : x.toModel.unpack = .finite s m e pos) : Placed m e := by
  -- bits are what packing their own fields gives
  let b : BitVec Format.binary64.numBits := x.toModel.toBits.toBitVec
  have fields : unpack Format.binary64 (packComponents Format.binary64
      (Sign.ofBitVec (unpackSign b)) (unpackExponent b) (unpackMantissa b)) = .finite s m e pos := by
    rw [packComponents_unpackSign_unpackExponent_unpackMantissa]
    exact h
  by_cases lower : (unpackExponent b).toNat < 2047
  · rcases unpack_packComponents lower with zero | ⟨n, f, npos, finite, placed, -⟩
    · exact nomatch zero.symm.trans fields
    · cases finite.symm.trans fields
      exact placed
  · have highest : (unpackExponent b) = -1#11 := by
      have bound : (unpackExponent b).toNat < 2 ^ 11 := (unpackExponent b).isLt
      exact BitVec.eq_of_toNat_eq (show (unpackExponent b).toNat = 2047 by omega)
    have special : x.toModel.unpack.isFinite = false := by
      show (unpack Format.binary64 b).isFinite = false
      unfold unpack
      rw [if_pos highest]
      split <;> rfl
    rw [h] at special
    cases special

/-! ## Storing -/

/-- What is read back of a result that was stored as a float. -/
def stored (u : UnpackedFloat) : UnpackedFloat :=
  (Float.Model.pack u).unpack

theorem stored_notANumber : stored .notANumber = .notANumber := by
  show unpack Format.binary64 (packedNaN Format.binary64) = .notANumber
  exact unpack_packedNaN

theorem stored_infinity (s : Sign) : stored (.infinity s) = .infinity s := by
  cases s <;> rfl

theorem stored_zero (s : Sign) : stored (.zero s) = .zero s := by
  cases s <;> rfl

/-- A result below the highest place is stored as a number of its sign, at its place or the
    lowest. -/
theorem stored_finite_of_small {s : Sign} {m : ℕ} {e : ℤ} {pos : 0 < m} (small : e < 972) :
    stored (.finite s m e pos) = .zero s ∨
      ∃ n f npos, stored (.finite s m e pos) = .finite s n f npos ∧ n < 2 ^ 53 ∧
        f ≤ max e (-1074) := by
  have unfolded : pack Format.binary64 (.finite s m e pos) =
      if 2 ^ 11 ≤ (e + 1023 + 52).toNat + 1 then packedInfinity Format.binary64 s
      else if m.log2 + 1 = 53 then
        packComponents Format.binary64 s (BitVec.ofNat 11 (e + 1023 + 52).toNat) (BitVec.ofNat 52 m)
      else packComponents Format.binary64 s 0#11 (BitVec.ofNat 52 m) := rfl
  have fields : ∃ (field : BitVec 11) (part : BitVec 52), pack Format.binary64 (.finite s m e pos) =
      packComponents Format.binary64 s field part ∧
      field.toNat < 2047 ∧ (field.toNat : ℤ) ≤ max (e + 1075) 0 := by
    rw [unfolded, if_neg (by omega)]
    -- a significand short of 53 bits is stored with the lowest exponent
    split
    · refine ⟨BitVec.ofNat 11 (e + 1023 + 52).toNat, _, rfl, ?_⟩
      rw [BitVec.toNat_ofNat]
      omega
    · exact ⟨0#11, _, rfl, by simp⟩
  obtain ⟨field, part, packed, lower, bound⟩ := fields
  have read : stored (.finite s m e pos) =
      unpack Format.binary64 (packComponents Format.binary64 s field part) := by
    rw [← packed]
    rfl
  rw [read]
  rcases unpack_packComponents lower with zero | ⟨n, f, npos, finite, placed, exponent⟩
  · exact .inl zero
  · exact .inr ⟨n, f, npos, finite, placed.bits, by omega⟩

/-- A result at a place above those of the floats becomes infinite. -/
theorem stored_finite_of_large {s : Sign} {m : ℕ} {e : ℤ} {pos : 0 < m} (large : 972 ≤ e) :
    stored (.finite s m e pos) = .infinity s := by
  have overflow : 2 ^ 11 ≤ (e + 1023 + 52).toNat + 1 := by omega
  have packed : pack Format.binary64 (.finite s m e pos) = packedInfinity Format.binary64 s :=
    if_pos overflow
  rw [← stored_infinity s]
  show unpack Format.binary64 (pack Format.binary64 (.finite s m e pos)) = _
  rw [packed]
  rfl

/-! ## Rounding -/

/-- The exponent at which a significand has at most 53 bits and that is not below the lowest. -/
def place (m : ℕ) (e : ℤ) : ℤ :=
  max e (max (m.log2 + 1 + e - 53) (-1074))

/-- The significand rounded at its place. -/
def rounded (m : ℕ) (e : ℤ) (a : Accuracy) : ℕ :=
  (ExtendedMantissa.ofMantissaAndAccuracy m a >>> (place m e - e).toNat).roundedMantissa

/-- The place after rounding, which may carry. -/
def lastPlace (m : ℕ) (e : ℤ) (a : Accuracy) : ℤ :=
  place (rounded m e a) (place m e)

theorem shiftToTargetExponent_eq (m : ℕ) (e : ℤ) (a : Accuracy) :
    shiftToTargetExponent Format.binary64 m e a =
      (ExtendedMantissa.ofMantissaAndAccuracy m a >>> (place m e - e).toNat, place m e) := by
  have target : Format.binary64.targetExponent (totalExponent m e) =
      max ((m.log2 : ℤ) + 1 + e - 53) (-1074) := rfl
  unfold shiftToTargetExponent shiftToExponent
  rw [target]
  have amount : (max ((m.log2 : ℤ) + 1 + e - 53) (-1074) - e).toNat = (place m e - e).toNat := by
    unfold place
    omega
  have exponent : e + (place m e - e).toNat = place m e := by
    unfold place
    omega
  simp only [amount, exponent]

theorem mantissa_ofMantissaAndAccuracy (m : ℕ) (a : Accuracy) :
    (ExtendedMantissa.ofMantissaAndAccuracy m a).mantissa = m := by
  rcases a with _ | _ | _ | _ <;> rfl

theorem mantissa_shiftRight (em : ExtendedMantissa) (n : ℕ) :
    (em >>> n).mantissa = em.mantissa / 2 ^ n := by
  induction n with
  | zero => exact (Nat.div_one _).symm
  | succ n ih =>
    show (em >>> n).mantissa / 2 = em.mantissa / 2 ^ (n + 1)
    rw [ih, Nat.div_div_eq_div_mul, Nat.pow_succ]

/-- Rounding goes up by one at most. -/
theorem roundedMantissa_bounds (em : ExtendedMantissa) :
    em.mantissa ≤ em.roundedMantissa ∧ em.roundedMantissa ≤ em.mantissa + 1 := by
  obtain ⟨m, _ | _, _ | _⟩ := em <;>
    simp only [ExtendedMantissa.roundedMantissa, ExtendedMantissa.accuracy,
      Accuracy.roundToNearestEven] <;> omega

theorem rounded_bounds (m : ℕ) (e : ℤ) (a : Accuracy) :
    m / 2 ^ (place m e - e).toNat ≤ rounded m e a ∧
      rounded m e a ≤ m / 2 ^ (place m e - e).toNat + 1 := by
  have bounds := roundedMantissa_bounds
    (ExtendedMantissa.ofMantissaAndAccuracy m a >>> (place m e - e).toNat)
  rw [mantissa_shiftRight, mantissa_ofMantissaAndAccuracy] at bounds
  exact bounds

/-- At its place a significand has at most 53 bits. -/
theorem div_place_lt (m : ℕ) (e : ℤ) : m / 2 ^ (place m e - e).toNat < 2 ^ 53 := by
  rw [Nat.div_lt_iff_lt_mul (Nat.two_pow_pos _), ← Nat.pow_add]
  have length : m.log2 + 1 ≤ 53 + (place m e - e).toNat := by
    unfold place
    omega
  exact Nat.lt_of_lt_of_le Nat.lt_log2_self (Nat.pow_le_pow_right (by omega) length)

theorem rounded_le (m : ℕ) (e : ℤ) (a : Accuracy) : rounded m e a ≤ 2 ^ 53 := by
  have below := div_place_lt m e
  have bounds := rounded_bounds m e a
  omega

/-- Only a carry out of 53 bits moves the place. -/
theorem lastPlace_eq (m : ℕ) (e : ℤ) (a : Accuracy) :
    lastPlace m e a = if rounded m e a = 2 ^ 53 then place m e + 1 else place m e := by
  have lowest : -1074 ≤ place m e := by
    unfold place
    omega
  unfold lastPlace
  split
  · next carry =>
    rw [carry, place, Nat.log2_two_pow]
    omega
  · next stays =>
    have bits : (rounded m e a).log2 ≤ 52 := by
      have below := rounded_le m e a
      by_cases zero : rounded m e a = 0
      · rw [zero]
        decide
      · have := (Nat.log2_lt zero).2 (by omega : rounded m e a < 2 ^ 53)
        omega
    rw [place]
    omega

/-- A rounded result is zero, or a number of its sign at its last place. -/
theorem roundWithAccuracy_eq (s : Sign) (m : ℕ) (e : ℤ) (a : Accuracy) :
    (rounded m e a = 0 ∧ roundWithAccuracy Format.binary64 s m e a = .zero s) ∨
      rounded m e a ≠ 0 ∧
        ∃ n pos, roundWithAccuracy Format.binary64 s m e a = .finite s n (lastPlace m e a) pos := by
  have unfolded : roundWithAccuracy Format.binary64 s m e a =
      if h : rounded m e a / 2 ^ (lastPlace m e a - place m e).toNat = 0 then .zero s
      else .finite s _ (lastPlace m e a) (Nat.pos_of_ne_zero h) := by
    simp only [roundWithAccuracy, shiftToTargetExponent_eq, mantissa_shiftRight,
      mantissa_ofMantissaAndAccuracy]
    rfl
  have nonzero : rounded m e a / 2 ^ (lastPlace m e a - place m e).toNat = 0 ↔
      rounded m e a = 0 := by
    rw [lastPlace_eq]
    split
    · next carry =>
      rw [carry, add_sub_cancel_left]
      decide
    · rw [sub_self, Int.toNat_zero, Nat.pow_zero, Nat.div_one]
  by_cases zero : rounded m e a = 0
  · exact .inl ⟨zero, unfolded.trans (dif_pos (nonzero.2 zero))⟩
  · exact .inr ⟨zero, _, _, unfolded.trans (dif_neg (mt nonzero.1 zero))⟩

theorem lowest_le_lastPlace (m : ℕ) (e : ℤ) (a : Accuracy) : -1074 ≤ lastPlace m e a := by
  unfold lastPlace place
  omega

/-- Up to the highest place a rounded result is stored as a number of its sign, not above its last
    place. -/
theorem stored_of_lastPlace_lt {m : ℕ} {e : ℤ} {a : Accuracy} (s : Sign)
    (small : lastPlace m e a < 972) :
    stored (roundWithAccuracy Format.binary64 s m e a) = .zero s ∨
      ∃ n f pos, stored (roundWithAccuracy Format.binary64 s m e a) = .finite s n f pos ∧
        n < 2 ^ 53 ∧ f ≤ lastPlace m e a := by
  rcases roundWithAccuracy_eq s m e a with ⟨-, zero⟩ | ⟨-, n, pos, finite⟩
  · rw [zero, stored_zero]
    exact .inl rfl
  · rw [finite]
    have lowest := lowest_le_lastPlace m e a
    rcases stored_finite_of_small small with h | ⟨k, f, kpos, h, bits, le⟩
    · exact .inl h
    · exact .inr ⟨k, f, kpos, h, bits, by omega⟩

theorem isFinite_stored_of_lastPlace {m : ℕ} {e : ℤ} {a : Accuracy} (s : Sign)
    (small : lastPlace m e a < 972) :
    (stored (roundWithAccuracy Format.binary64 s m e a)).isFinite = true := by
  rcases stored_of_lastPlace_lt s small with zero | ⟨n, f, pos, finite, -⟩
  · rw [zero]
    rfl
  · rw [finite]
    rfl

/-- Above the highest place a rounded result is stored as the infinity of its sign. -/
theorem stored_of_le_lastPlace {m : ℕ} {e : ℤ} {a : Accuracy} (s : Sign) (pos : 0 < m)
    (large : 972 ≤ lastPlace m e a) :
    stored (roundWithAccuracy Format.binary64 s m e a) = .infinity s := by
  -- a place so high is due to the bits, the first of which stays
  have nonzero : rounded m e a ≠ 0 := by
    have high : 971 ≤ place m e := by
      rw [lastPlace_eq] at large
      split at large <;> omega
    have amount : (place m e - e).toNat ≤ m.log2 := by
      unfold place at high ⊢
      omega
    have kept : 2 ^ (place m e - e).toNat ≤ m :=
      (Nat.pow_le_pow_right (by omega) amount).trans (Nat.log2_self_le (Nat.ne_of_gt pos))
    have bounds := (rounded_bounds m e a).1
    have := Nat.div_pos kept (Nat.two_pow_pos _)
    omega
  rcases roundWithAccuracy_eq s m e a with ⟨zero, -⟩ | ⟨-, n, npos, finite⟩
  · exact absurd zero nonzero
  · rw [finite]
    exact stored_finite_of_large large

/-- A rounded result is a zero, a number or the infinity of its sign. -/
theorem stored_cases (s : Sign) (m : ℕ) (e : ℤ) (a : Accuracy) :
    stored (roundWithAccuracy Format.binary64 s m e a) = .zero s ∨
      stored (roundWithAccuracy Format.binary64 s m e a) = .infinity s ∨
      ∃ n f pos, stored (roundWithAccuracy Format.binary64 s m e a) = .finite s n f pos := by
  by_cases small : lastPlace m e a < 972
  · rcases stored_of_lastPlace_lt s small with zero | ⟨n, f, pos, finite, -⟩
    · exact .inl zero
    · exact .inr (.inr ⟨n, f, pos, finite⟩)
  · rcases roundWithAccuracy_eq s m e a with ⟨-, zero⟩ | ⟨-, n, pos, finite⟩
    · rw [zero]
      exact .inl (stored_zero s)
    · rw [finite]
      exact .inr (.inl (stored_finite_of_large (by omega)))

/-- No rounded result is what is no number. -/
theorem isNaN_stored (s : Sign) (m : ℕ) (e : ℤ) (a : Accuracy) :
    (stored (roundWithAccuracy Format.binary64 s m e a)).isNaN = false := by
  rcases stored_cases s m e a with h | h | ⟨n, f, pos, h⟩ <;> rw [h] <;> rfl

theorem exactOf_stored_nonneg (m : ℕ) (e : ℤ) (a : Accuracy) :
    0 ≤ exactOf (stored (roundWithAccuracy Format.binary64 .positive m e a)) := by
  rcases stored_cases .positive m e a with h | h | ⟨n, f, pos, h⟩
  · rw [h]
    exact le_refl 0
  · rw [h]
    exact le_refl 0
  · rw [h]
    show (0 : ℚ) ≤ n * 2 ^ f
    positivity

/-! ## Overflow -/

/-- Half a unit above the largest float. -/
def overflow : ℚ := 2 ^ 1024 - 2 ^ 970

theorem two_zpow_le_overflow {k : ℤ} (h : k ≤ 1023) : (2 : ℚ) ^ k ≤ overflow := by
  have unit : (2 : ℚ) ^ 970 ≤ 2 ^ 1023 := pow_le_pow_right₀ one_le_two (by omega)
  have room : (2 : ℚ) ^ 1023 ≤ overflow := by
    rw [overflow, pow_succ' _ 1023, two_mul]
    exact le_sub_iff_add_le.2 (add_le_add_right unit _)
  refine LE.le.trans ?_ room
  rw [← zpow_natCast]
  exact zpow_le_zpow_right₀ one_le_two (by omega)

theorem overflow_pos : 0 < overflow :=
  lt_of_lt_of_le (by positivity) (two_zpow_le_overflow le_rfl)

theorem overflow_le_two_zpow {k : ℤ} (h : 1024 ≤ k) : overflow ≤ (2 : ℚ) ^ k := by
  have top : overflow ≤ 2 ^ 1024 := sub_le_self _ (by positivity)
  refine top.trans ?_
  rw [← zpow_natCast]
  exact zpow_le_zpow_right₀ one_le_two (by omega)

/-- A number is below the power of two that its bits reach. -/
theorem value_lt (m : ℕ) (e : ℤ) : (m : ℚ) * 2 ^ e < 2 ^ (m.log2 + 1 + e : ℤ) := by
  have length : (m : ℚ) < 2 ^ (m.log2 + 1) := by exact_mod_cast Nat.lt_log2_self
  rw [zpow_add₀ two_ne_zero, ← Nat.cast_succ, zpow_natCast]
  exact mul_lt_mul_of_pos_right length (by positivity)

theorem le_value {m : ℕ} (pos : 0 < m) (e : ℤ) : (2 : ℚ) ^ (m.log2 + e : ℤ) ≤ m * 2 ^ e := by
  have length : (2 : ℚ) ^ m.log2 ≤ m := by exact_mod_cast Nat.log2_self_le (Nat.ne_of_gt pos)
  rw [zpow_add₀ two_ne_zero, zpow_natCast]
  exact mul_le_mul_of_nonneg_right length (by positivity)

/-- Rounding to even carries out of 53 bits exactly from half a unit below the carry on. -/
theorem roundedMantissa_shiftRight_succ (em : ExtendedMantissa) (n : ℕ)
    (bits : em.mantissa / 2 ^ n < 2 ^ 54) :
    (em >>> (n + 1)).roundedMantissa = 2 ^ 53 ↔ 2 ^ 54 - 1 ≤ em.mantissa / 2 ^ n := by
  have last := mantissa_shiftRight em n
  have halved : (em >>> (n + 1)).mantissa = em.mantissa / 2 ^ n / 2 := by
    rw [← last]
    rfl
  have round : (em >>> (n + 1)).roundBit = (em.mantissa / 2 ^ n % 2 != 0) := by
    rw [← last]
    rfl
  obtain ⟨d, hd⟩ : ∃ d, em.mantissa / 2 ^ n = d := ⟨_, rfl⟩
  rw [hd] at bits halved round ⊢
  cases shifted : em >>> (n + 1) with | mk m bit sticky
  rw [shifted] at halved round
  obtain rfl : m = d / 2 := halved
  obtain rfl : bit = (d % 2 != 0) := round
  -- the last bit of the shorter shift decides: at the top the significand is odd
  rcases Nat.mod_two_eq_zero_or_one d with even | odd
  · have clear : (d % 2 != 0) = false := by rw [even]; rfl
    rw [clear]
    cases sticky <;>
      simp only [ExtendedMantissa.roundedMantissa, ExtendedMantissa.accuracy,
        Accuracy.roundToNearestEven] <;> omega
  · have set : (d % 2 != 0) = true := by rw [odd]; rfl
    rw [set]
    cases sticky <;>
      simp only [ExtendedMantissa.roundedMantissa, ExtendedMantissa.accuracy,
        Accuracy.roundToNearestEven] <;> omega

/-- A significand that fits at its place is below the bound. -/
theorem value_lt_overflow {m : ℕ} {e : ℤ} (bits : m < 2 ^ 53) (he : e ≤ 971) :
    (m : ℚ) * 2 ^ e < overflow := by
  have length : (m : ℚ) ≤ 2 ^ 53 - 1 := by
    rw [le_sub_iff_add_le]
    exact_mod_cast bits
  have power : (2 : ℚ) ^ e ≤ 2 * 2 ^ 970 := by
    rw [← pow_succ', ← zpow_natCast]
    exact zpow_le_zpow_right₀ one_le_two (by omega)
  have top : (2 : ℚ) ^ 1024 = 2 ^ 53 * (2 * 2 ^ 970) := by
    rw [← pow_succ', ← pow_add]
  have positive : (0 : ℚ) < 2 ^ 970 := by positivity
  rw [overflow, top]
  generalize (2 : ℚ) ^ 970 = u at power positive ⊢
  calc (m : ℚ) * 2 ^ e ≤ (2 ^ 53 - 1) * (2 * u) :=
        mul_le_mul length power (by positivity) (by norm_num)
    _ < 2 ^ 53 * (2 * u) - u := by linarith

/-- The bound in terms of a significand, at the place below the highest or lower. -/
theorem lt_overflow_iff (m n : ℕ) :
    (m : ℚ) * 2 ^ (970 - n : ℤ) < overflow ↔ m < (2 ^ 54 - 1) * 2 ^ n := by
  have value : (m : ℚ) * 2 ^ (970 - n : ℤ) = m / 2 ^ n * 2 ^ 970 := by
    rw [zpow_sub₀ two_ne_zero, zpow_natCast, zpow_ofNat, mul_div_assoc', div_mul_eq_mul_div]
  have top : overflow = (2 ^ 54 - 1) * 2 ^ 970 := by
    rw [overflow, sub_mul, ← pow_add, one_mul]
  have whole : ((2 ^ 54 - 1) * 2 ^ n : ℚ) = ((2 ^ 54 - 1) * 2 ^ n : ℕ) := by
    rw [Nat.cast_mul, Nat.cast_pow]
    norm_num
  have positive : (0 : ℚ) < 2 ^ n := by positivity
  rw [value, top, mul_lt_mul_iff_of_pos_right (by positivity), div_lt_iff₀ positive, whole,
    Nat.cast_lt]

/-- A number at the highest place carries exactly from half a unit above the largest float on. -/
theorem rounded_lt_iff {m : ℕ} {e : ℤ} (h : place m e = 971) :
    rounded m e .exact < 2 ^ 53 ↔ (m : ℚ) * 2 ^ e < overflow := by
  have below := div_place_lt m e
  have le := rounded_le m e .exact
  obtain ⟨n, hn⟩ : ∃ n : ℕ, e = 971 - n := ⟨(971 - e).toNat, by unfold place at h; omega⟩
  have amount : (place m e - e).toNat = n := by omega
  rw [amount] at below
  cases n with
  | zero =>
    -- a significand in its place already
    have same : rounded m e .exact = m := by
      rw [rounded, amount]
      rfl
    have bits : m < 2 ^ 53 := by rwa [Nat.pow_zero, Nat.div_one] at below
    rw [same]
    exact iff_of_true bits (value_lt_overflow bits (by omega))
  | succ n =>
    have shorter : e = 970 - n := by omega
    have bits : m / 2 ^ n < 2 ^ 54 := by
      rw [Nat.pow_succ, ← Nat.div_div_eq_div_mul] at below
      omega
    have carry : rounded m e .exact = 2 ^ 53 ↔ 2 ^ 54 - 1 ≤ m / 2 ^ n := by
      rw [rounded, amount]
      exact roundedMantissa_shiftRight_succ (.ofMantissaAndAccuracy m .exact) n bits
    have bound := lt_overflow_iff m n
    rw [← shorter, ← Nat.div_lt_iff_lt_mul (Nat.two_pow_pos n)] at bound
    rw [bound]
    omega

/-- A number that is known exactly is rounded up to half a unit above the largest float. -/
theorem lastPlace_lt_iff {m : ℕ} {e : ℤ} (pos : 0 < m) (fits : e ≤ 971 ∨ 52 ≤ m.log2) :
    lastPlace m e .exact < 972 ↔ (m : ℚ) * 2 ^ e < overflow := by
  have length : lastPlace m e .exact < 972 ↔
      place m e < 971 ∨ place m e = 971 ∧ rounded m e .exact < 2 ^ 53 := by
    have le := rounded_le m e .exact
    rw [lastPlace_eq]
    split <;> omega
  rw [length]
  rcases lt_trichotomy (place m e) 971 with low | top | high
  · have bits : (m.log2 : ℤ) + 1 + e ≤ 1023 := by
      unfold place at low
      omega
    exact iff_of_true (.inl low) ((value_lt m e).trans_le (two_zpow_le_overflow bits))
  · rw [← rounded_lt_iff top]
    omega
  · -- the exponent alone does not reach so high, the bits do
    have bits : 1024 ≤ (m.log2 : ℤ) + e := by
      unfold place at high
      omega
    refine iff_of_false (by omega) (not_lt_of_ge ?_)
    exact (overflow_le_two_zpow bits).trans (le_value pos e)

/-- A number that is known exactly stays finite up to half a unit above the largest float. -/
theorem isFinite_stored_iff {s : Sign} {m : ℕ} {e : ℤ} (pos : 0 < m)
    (fits : e ≤ 971 ∨ 52 ≤ m.log2) :
    (stored (roundWithAccuracy Format.binary64 s m e .exact)).isFinite = true ↔
      (m : ℚ) * 2 ^ e < overflow := by
  rw [← lastPlace_lt_iff pos fits]
  by_cases small : lastPlace m e .exact < 972
  · exact iff_of_true (isFinite_stored_of_lastPlace s small) small
  · have infinite := stored_of_le_lastPlace s pos (by omega : 972 ≤ lastPlace m e .exact)
    exact iff_of_false (by rw [infinite]; exact nofun) small

/-- A power of two bounds a result of no more than its bits up to a factor of two. -/
theorem abs_exactOf_stored_lt {s : Sign} {m : ℕ} {e c : ℤ} {a : Accuracy} (pos : 0 < m)
    (bound : (m : ℚ) * 2 ^ e < 2 ^ c) (low : e ≤ c - 53) (range : -1021 ≤ c ∧ c ≤ 1023) :
    |exactOf (stored (roundWithAccuracy Format.binary64 s m e a))| < 2 ^ (c + 1) := by
  have bits : (m.log2 : ℤ) + e < c := by
    have below := (le_value pos e).trans_lt bound
    exact (zpow_lt_zpow_iff_right₀ one_lt_two).1 below
  have last : lastPlace m e a ≤ c - 52 := by
    rw [lastPlace_eq]
    unfold place
    split <;> omega
  rcases stored_of_lastPlace_lt s (by omega : lastPlace m e a < 972) with zero | ⟨n, f, npos, h, bits, le⟩
  · rw [zero]
    simp only [exactOf, abs_zero]
    positivity
  · have size : |exactOf (.finite s n f npos)| = n * 2 ^ f := by
      have nonneg : (0 : ℚ) ≤ n * 2 ^ f := by positivity
      cases s <;> simp only [exactOf, abs_neg, abs_of_nonneg nonneg]
    have length : (n : ℚ) < 2 ^ (53 : ℤ) := by exact_mod_cast bits
    rw [h, size]
    calc (n : ℚ) * 2 ^ f < 2 ^ (53 : ℤ) * 2 ^ f := mul_lt_mul_of_pos_right length (by positivity)
      _ = 2 ^ (53 + f) := (zpow_add₀ two_ne_zero _ _).symm
      _ ≤ 2 ^ (c + 1) := zpow_le_zpow_right₀ one_le_two (by omega)

/-! ## Numbers in units of a power of two -/

/-- A significand gets the bits that a float has before it is rounded. -/
theorem round_eq (s : Sign) (m : ℕ) (e : ℤ) : ∃ k : ℕ,
    UnpackedFloat.round Format.binary64 s m e =
      roundWithAccuracy Format.binary64 s (m * 2 ^ k) (e - k) .exact ∧
    e - k ≤ max (m.log2 + 1 + e - 53) (-1074) := by
  have target : Format.binary64.targetExponent (totalExponent m e) =
      max ((m.log2 : ℤ) + 1 + e - 53) (-1074) := rfl
  refine ⟨(e - max ((m.log2 : ℤ) + 1 + e - 53) (-1074)).toNat, ?_, by omega⟩
  unfold UnpackedFloat.round decreaseExponent
  rw [target]
  simp only [Nat.shiftLeft_eq]

theorem value_shift (m k : ℕ) (e : ℤ) : ((m * 2 ^ k : ℕ) : ℚ) * 2 ^ (e - k) = m * 2 ^ e := by
  rw [zpow_sub₀ two_ne_zero, zpow_natCast, Nat.cast_mul, Nat.cast_pow, Nat.cast_ofNat,
    mul_assoc, mul_div_cancel₀]
  positivity

theorem isFinite_stored_round_iff {s : Sign} {m : ℕ} {e : ℤ} (pos : 0 < m) (he : e ≤ 971) :
    (stored (UnpackedFloat.round Format.binary64 s m e)).isFinite = true ↔
      (m : ℚ) * 2 ^ e < overflow := by
  obtain ⟨k, shifted, -⟩ := round_eq s m e
  rw [shifted, ← value_shift m k e]
  exact isFinite_stored_iff (Nat.mul_pos pos (Nat.two_pow_pos k)) (.inl (by omega))

theorem abs_exactOf_stored_round_lt {s : Sign} {m : ℕ} {e c : ℤ} (pos : 0 < m)
    (bound : (m : ℚ) * 2 ^ e < 2 ^ c) (range : -1021 ≤ c ∧ c ≤ 1023) :
    |exactOf (stored (UnpackedFloat.round Format.binary64 s m e))| < 2 ^ (c + 1) := by
  obtain ⟨k, shifted, low⟩ := round_eq s m e
  have bits : (m.log2 : ℤ) + e < c :=
    (zpow_lt_zpow_iff_right₀ one_lt_two).1 ((le_value pos e).trans_lt bound)
  rw [← value_shift m k e] at bound
  rw [shifted]
  exact abs_exactOf_stored_lt (Nat.mul_pos pos (Nat.two_pow_pos k)) bound (by omega) range

/-- A whole number in units of a power of two is rounded by its sign and its size. -/
theorem normalize_eq (z e : ℤ) (s : Sign) :
    UnpackedFloat.normalize Format.binary64 z e s =
      if z = 0 then .zero s
      else UnpackedFloat.round Format.binary64 (if z < 0 then .negative else .positive)
        z.natAbs e := by
  unfold UnpackedFloat.normalize
  rcases lt_trichotomy z 0 with below | rfl | above
  · rw [compare_lt_iff_lt.2 below, if_neg (by omega), if_pos below]
    have size : (-z).toNat = z.natAbs := by omega
    rw [size]
  · rfl
  · rw [compare_gt_iff_gt.2 above, if_neg (by omega), if_neg (by omega)]
    have size : z.toNat = z.natAbs := by omega
    rw [size]

end BuildingControl.Number
