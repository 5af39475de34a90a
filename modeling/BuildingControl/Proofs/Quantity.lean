/-
  BuildingControl.Proofs.Quantity

  What arguments with a unit are read as.  The characters in front of a unit spell
  no word, so what is read is a number, though it need not be finite.  A temperature
  is finite and above absolute zero, a volume flow may be infinite.  Rounded to six
  decimal places either is a number again, and finite unless it is too large to be
  scaled (`Rounds`).
-/
import BuildingControl.Checking
import BuildingControl.Proofs.Number.Decimals
import BuildingControl.Quantity

namespace BuildingControl.Quantity

open Number

/-! ## Numbers in front of a unit -/

/-- No character of a number is a letter of `nan`, `inf` and `infinity` that they all have. -/
theorem toLower_ne_of_isNumberChar {c : Char} (h : isNumberChar c = true) : c.toLower ≠ 'n' := by
  unfold isNumberChar at h
  simp only [Bool.or_eq_true, beq_iff_eq] at h
  rcases h with ((((digit | rfl) | rfl) | rfl) | rfl) | rfl
  · have digits : ∀ n : Fin 10, (Char.ofNat (48 + n)).toLower ≠ 'n' := by decide
    have range : 48 ≤ c.toNat ∧ c.toNat ≤ 57 := Char.isDigit_iff_toNat.1 digit
    have this := digits ⟨c.toNat - 48, by omega⟩
    rwa [show 48 + (c.toNat - 48) = c.toNat by omega, Char.ofNat_toNat] at this
  all_goals decide

/-- The characters of numbers spell no word. -/
theorem word?_eq_none {cs : List Char} (h : ∀ c ∈ cs, isNumberChar c = true) :
    Decimal.word? cs = none := by
  have other (word : String) (n : 'n' ∈ word.toList) :
      String.ofList (cs.map Char.toLower) ≠ word := by
    rintro rfl
    rw [String.toList_ofList] at n
    obtain ⟨c, hc, lower⟩ := List.mem_map.1 n
    exact toLower_ne_of_isNumberChar (h c hc) lower
  unfold Decimal.word?
  split
  · next same => exact absurd same (other "inf" (by decide))
  · next same => exact absurd same (other "infinity" (by decide))
  · next same => exact absurd same (other "nan" (by decide))
  · rfl

/-- The float nearest to a decimal is a number. -/
theorem isNaN_nearest (mant : ℕ) (exp : ℤ) : (Decimal.nearest mant exp).isNaN = false := by
  unfold Decimal.nearest
  split
  · decide +kernel
  dsimp only
  split
  · decide +kernel
  split
  · decide +kernel
  · exact isNaN_ofScientific _ _ _

theorem isNaN_withSign (negative : Bool) (x : Float) :
    (Decimal.withSign negative x).isNaN = x.isNaN := by
  cases negative with
  | false => rfl
  | true =>
    show (-x).toModel.unpack.isNaN = x.toModel.unpack.isNaN
    rw [unpack_neg]
    cases x.toModel.unpack <;> rfl

theorem mem_of_mem_spanSign {cs : List Char} {c : Char} (h : c ∈ (Decimal.spanSign cs).2) :
    c ∈ cs := by
  unfold Decimal.spanSign at h
  split at h
  · exact List.mem_cons_of_mem _ h
  · exact List.mem_cons_of_mem _ h
  · exact h

/-- What the characters of numbers are read as is a number. -/
theorem isNaN_of_readChars {cs : List Char} (chars : ∀ c ∈ cs, isNumberChar c = true) {x : Float}
    (h : Decimal.readChars cs = .ok x) : x.isNaN = false := by
  have body : Decimal.word? (Decimal.spanSign cs).2 = none :=
    word?_eq_none fun c hc => chars c (mem_of_mem_spanSign hc)
  unfold Decimal.readChars at h
  split at h
  · cases h
  dsimp only at h
  rw [body] at h
  cases literal : Decimal.literal? (Decimal.spanSign cs).2 with
  | none =>
    rw [literal] at h
    cases h
  | some l =>
    rw [literal] at h
    cases h
    rw [isNaN_withSign]
    exact isNaN_nearest _ _

theorem isNaN_of_split {input unit : String} {x : Float} (h : split input = .ok (x, unit)) :
    x.isNaN = false := by
  unfold split at h
  dsimp only at h
  split at h
  · next y read =>
    cases h
    exact isNaN_of_readChars (fun c hc => List.mem_takeWhile_imp (Text.mem_of_mem_trimChars hc)) read
  · cases h

/-! ## Quantities -/

/-- A temperature argument is finite and above absolute zero. -/
theorem kelvin_of_readTemperature {input : String} {t : Temperature}
    (h : readTemperature input = .ok t) : t.kelvin.isFinite = true ∧ 0 < t.kelvin := by
  unfold readTemperature at h
  obtain ⟨⟨x, unit⟩, -, h⟩ := bind_eq_ok_iff.1 h
  dsimp only at h
  split at h
  · cases h
  · next of _ =>
    split at h
    · next range =>
      cases h
      simpa using range
    · cases h

/-- A volume flow argument is a number. -/
theorem isNaN_of_readVolumeFlow {input : String} {q : VolumeFlow}
    (h : readVolumeFlow input = .ok q) : q.cubicMetresPerSecond.isNaN = false := by
  unfold readVolumeFlow at h
  obtain ⟨⟨x, unit⟩, parts, h⟩ := bind_eq_ok_iff.1 h
  have number := isNaN_of_split parts
  dsimp only at h
  split at h
  · cases h
  · next of known =>
    split at h
    · cases h
    · cases h
      unfold volumeFlowUnit? at known
      split at known <;> cases known
      · exact number
      · exact number
      · exact number
      · exact isNaN_mul (by decide +kernel) (by decide +kernel) number
      · exact isNaN_mul (by decide +kernel) (by decide +kernel) number
      · exact isNaN_div (by decide +kernel) (by decide +kernel) number

/-! ## Temperatures in degrees Celsius -/

theorem exact_pos {x : Float} (finite : x.isFinite = true) (h : 0 < x) : 0 < exact x := by
  have zero : (0 : Float).toModel.unpack = .zero .positive := rfl
  rw [lt_iff_unpack, zero] at h
  rcases finite_cases finite with ⟨s, hx⟩ | ⟨s, m, e, pos, hx⟩
  · rw [hx] at h
    cases h
  · cases s with
    | negative =>
      rw [hx] at h
      cases h
    | positive =>
      rw [exact_of_unpack hx]
      show (0 : ℚ) < 1 * (m * 2 ^ e)
      positivity

/-- Above absolute zero a temperature in degrees Celsius is finite, and not far below zero. -/
theorem celsius_of_kelvin {t : Temperature} (finite : t.kelvin.isFinite = true)
    (above : 0 < t.kelvin) : t.celsius.isFinite = true ∧ -2 ^ 10 < exact t.celsius := by
  have positive := exact_pos finite above
  have small := abs_exact_lt_overflow finite
  have offset : (273.15 : Float).isFinite = true := by decide +kernel
  have size : 0 < exact 273.15 ∧ exact 273.15 < 2 ^ (9 : ℤ) := by decide +kernel
  have room : exact 273.15 < overflow := size.2.trans_le (two_zpow_le_overflow (by omega))
  obtain ⟨s, m, e, mpos, hk⟩ := exists_unpack finite positive.ne'
  obtain ⟨u, n, f, npos, hc⟩ := exists_unpack offset size.1.ne'
  rw [abs_of_pos positive] at small
  refine ⟨isFinite_sub hk hc (abs_sub_lt_iff.2 ⟨by linarith, by linarith⟩), ?_⟩
  show -2 ^ 10 < exact (t.kelvin - 273.15)
  by_cases warm : exact 273.15 ≤ exact t.kelvin
  · have nonneg := exact_sub_nonneg hk hc warm
    linarith
  · -- below freezing the difference is at most the offset
    have near : |exact t.kelvin - exact 273.15| < 2 ^ (9 : ℤ) :=
      abs_sub_lt_iff.2 ⟨by linarith [size.2], by linarith [size.2]⟩
    have bounds := abs_lt.1 (abs_exact_sub_lt hk hc (by omega) near)
    exact_mod_cast bounds.1

/-! ## Rounding -/

/-- What a quantity rounded to six decimal places is: finite unless it is too large to be scaled, and
    infinity then. -/
structure Rounds (x y : Float) : Prop where
  isNumber : y.isNaN = false
  isFinite_iff : y.isFinite = true ↔ x.isFinite = true ∧ |exact x| * 10 ^ 6 < overflow
  otherwise : y.isFinite = false → y = infinity

theorem isFinite_tenTo_six : (tenTo 6).isFinite = true := by decide +kernel

theorem exact_tenTo_six : exact (tenTo 6) = 10 ^ 6 := by decide +kernel

theorem two_le_exact_tenTo_six : 2 ≤ exact (tenTo 6) := by
  rw [exact_tenTo_six]
  norm_num

theorem isFinite_roundTo_six_iff {x : Float} : (roundTo x 6).isFinite = true ↔
    x.isFinite = true ∧ |exact x| * 10 ^ 6 < overflow := by
  rw [isFinite_roundTo_iff isFinite_tenTo_six two_le_exact_tenTo_six, exact_tenTo_six, abs_mul]
  norm_num

theorem rounds_of_ne {x : Float} (number : x.isNaN = false) (above : roundTo x 6 ≠ negInfinity) :
    Rounds x (roundTo x 6) := by
  have isNumber := isNaN_roundTo isFinite_tenTo_six two_le_exact_tenTo_six number
  refine ⟨isNumber, isFinite_roundTo_six_iff, fun special => ?_⟩
  rcases eq_of_not_isFinite special with h | h | h
  · exact h
  · exact absurd h above
  · rw [h] at isNumber
    exact absurd isNumber (by decide +kernel)

/-- A temperature argument in degrees Celsius, rounded. -/
theorem rounds_celsius {input : String} {t : Temperature} (h : readTemperature input = .ok t) :
    Rounds t.celsius (roundTo t.celsius 6) := by
  obtain ⟨finite, above⟩ := kelvin_of_readTemperature h
  obtain ⟨celsius, low⟩ := celsius_of_kelvin finite above
  refine rounds_of_ne (isNaN_of_isFinite celsius) fun below => ?_
  have lost : ¬ (roundTo t.celsius 6).isFinite = true := by
    rw [below]
    decide +kernel
  rw [isFinite_roundTo_six_iff] at lost
  have large : overflow ≤ |exact t.celsius| * 10 ^ 6 := by
    simpa [celsius] using lost
  have room : (2 : ℚ) ^ (40 : ℤ) ≤ overflow := two_zpow_le_overflow (by omega)
  -- what is too large is far above zero, as the temperature is not far below it
  have positive : 0 ≤ exact t.celsius := by
    by_contra negative
    rw [abs_of_neg (not_le.1 negative)] at large
    norm_num at room
    linarith
  rw [abs_of_nonneg positive, ← exact_tenTo_six] at large
  rw [roundTo_eq_infinity isFinite_tenTo_six two_le_exact_tenTo_six celsius large] at below
  exact absurd below (by decide +kernel)

end BuildingControl.Quantity
