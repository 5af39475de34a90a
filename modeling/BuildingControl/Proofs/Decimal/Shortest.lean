/-
  BuildingControl.Proofs.Decimal.Shortest

  The shortest decimal of a float is always found, and its point stands where the float
  has it or one place further up.  On a grid of seventeen digits two neighbours are less
  than one unit of the float's last place apart, and so one of the two around the float
  rounds to it (`isSome_hit?`).  The place further up is for a decimal that was
  rounded up to a power of ten (`point_shortest`).
-/
import BuildingControl.Decimal.Layout
import Mathlib.Algebra.Order.Field.Rat
import Mathlib.Algebra.Order.Field.Power
import Mathlib.Data.Int.Log
import Mathlib.Data.Rat.Floor
import Mathlib.Tactic.FieldSimp
import Mathlib.Tactic.Linarith
import Mathlib.Tactic.NormNum
import Mathlib.Tactic.Positivity
import Mathlib.Tactic.Ring

namespace BuildingControl.Decimal

/-! ## The place of the point -/

/-- A number below one becomes one at the power of ten that its leading zeros count. -/
theorem leadingZeros_spec {num den fuel : ℕ} (small : num < den) (enough : den ≤ num * 10 ^ fuel) :
    num * 10 ^ leadingZeros num den fuel < den ∧ den ≤ num * 10 ^ (leadingZeros num den fuel + 1) := by
  induction fuel generalizing num with
  | zero =>
    rw [pow_zero, mul_one] at enough
    omega
  | succ fuel ih =>
    rw [leadingZeros]
    split
    · next more =>
      have rest := ih more (by rwa [mul_assoc, ← pow_succ'])
      rw [mul_assoc, ← pow_succ', mul_assoc, ← pow_succ'] at rest
      rwa [Nat.add_comm 1]
    · next last => simpa using ⟨small, Nat.le_of_not_lt last⟩

/-- The number of digits of a number that is not zero. -/
theorem length_digitChars {n : ℕ} (pos : 0 < n) :
    10 ^ ((digitChars n).length - 1) ≤ n ∧ n < 10 ^ (digitChars n).length := by
  have some : 0 < (digitChars n).length := Nat.length_toDigits_pos
  refine ⟨?_, (Nat.length_toDigits_le_iff (by decide) some).1 le_rfl⟩
  by_contra below
  rw [not_le] at below
  rcases Nat.eq_zero_or_pos ((digitChars n).length - 1) with one | more
  · rw [one, pow_zero] at below
    omega
  · have fewer : (digitChars n).length ≤ (digitChars n).length - 1 :=
      (Nat.length_toDigits_le_iff (by decide) more).2 below
    omega

/-- The point stands behind the leading digit, whose place is the logarithm of the number. -/
theorem pointOf_eq {num den : ℕ} (pos : 0 < num) (hden : 0 < den) (enough : den ≤ num * 10 ^ 400) :
    pointOf num den = Int.log 10 ((num : ℚ) / den) + 1 := by
  have den' : (0 : ℚ) < den := by exact_mod_cast hden
  have number : (0 : ℚ) < num / den := div_pos (by exact_mod_cast pos) den'
  -- the powers of ten around a number tell its logarithm
  suffices around : ((10 : ℕ) : ℚ) ^ (pointOf num den - 1) ≤ num / den ∧
      (num : ℚ) / den < ((10 : ℕ) : ℚ) ^ pointOf num den by
    have low := (Int.zpow_le_iff_le_log (by decide) number).1 around.1
    have high := (Int.lt_zpow_iff_log_lt (by decide) number).1 around.2
    omega
  rw [le_div_iff₀ den', div_lt_iff₀ den', pointOf]
  split
  · next whole =>
    obtain ⟨low, high⟩ := length_digitChars (Nat.div_pos whole hden)
    have some : 0 < (digitChars (num / den)).length := Nat.length_toDigits_pos
    rw [Nat.le_div_iff_mul_le hden] at low
    rw [Nat.div_lt_iff_lt_mul hden] at high
    have place : ((Nat.toDigits 10 (num / den)).length : ℤ) - 1 =
        ((digitChars (num / den)).length - 1 : ℕ) := by
      rw [Nat.cast_sub some]
      rfl
    rw [place, zpow_natCast, zpow_natCast]
    exact ⟨by exact_mod_cast low, by exact_mod_cast high⟩
  · next small =>
    obtain ⟨below, reached⟩ := leadingZeros_spec (by omega) enough
    set k := leadingZeros num den 400
    have before : -(k : ℤ) - 1 = -((k + 1 : ℕ) : ℤ) := by omega
    rw [before, zpow_neg, zpow_neg, zpow_natCast, zpow_natCast]
    constructor
    · rw [inv_mul_le_iff₀ (by positivity), mul_comm]
      exact_mod_cast reached
    · rw [lt_inv_mul_iff₀ (by positivity), mul_comm]
      exact_mod_cast below

/-! ## The interval -/

/-- A power in two parts, one of which is one. -/
theorem zpow_eq_div_toNat (b : ℕ) (z : ℤ) :
    (b : ℚ) ^ z = (b ^ z.toNat : ℕ) / (b ^ (-z).toNat : ℕ) := by
  rcases Int.eq_nat_or_neg z with ⟨n, rfl | rfl⟩
  · simp
  · simp

/-- The size of a finite float that is not zero. -/
structure Binary.Finite (b : Binary) : Prop where
  pos : 0 < b.mant
  bits : b.mant < 2 ^ 53
  half : b.lowHalf = true → b.mant = 2 ^ 52
  lowest : -1074 ≤ b.exp

section OfBinary

variable (b : Binary)

theorem Span.den_pos : 0 < (Span.ofBinary b).den :=
  Nat.two_pow_pos _

/-- The value of a span is that of the number it was made for. -/
theorem Span.value_div_den :
    ((Span.ofBinary b).value : ℚ) / (Span.ofBinary b).den = b.mant * 2 ^ b.exp := by
  have quarter : (2 : ℚ) ^ (b.exp - 2) = _ := zpow_eq_div_toNat 2 (b.exp - 2)
  have whole : (2 : ℚ) ^ b.exp = 4 * 2 ^ (b.exp - 2) := by
    rw [zpow_sub₀ two_ne_zero]
    ring
  rw [whole, quarter, neg_sub]
  simp only [Span.ofBinary, Nat.pow_eq]
  push_cast
  ring

variable {b}

/-- The ends of the interval in quarters of the last place: the upper end is two of them away, the
    lower end two as well or, below a power of two, one. -/
theorem Span.ends_ofBinary (pos : 0 < b.mant) : ∃ unit,
    (Span.ofBinary b).value = b.mant * (4 * unit) ∧
      (Span.ofBinary b).high = (Span.ofBinary b).value + 2 * unit ∧
      (b.lowHalf = true ∧ (Span.ofBinary b).low + unit = (Span.ofBinary b).value ∨
        (Span.ofBinary b).low + 2 * unit = (Span.ofBinary b).value) := by
  refine ⟨Nat.pow 2 (b.exp - 2).toNat, ?_, Nat.add_mul _ _ _, ?_⟩
  · rw [Nat.mul_left_comm, ← Nat.mul_assoc]
    rfl
  · dsimp only [Span.ofBinary]
    cases b.lowHalf with
    | true =>
      refine .inl ⟨rfl, ?_⟩
      rw [if_pos rfl, ← Nat.succ_mul]
      congr 1
      omega
    | false =>
      refine .inr ?_
      rw [if_neg (by decide), ← Nat.add_mul]
      congr 1
      omega

end OfBinary

/-! ## The grid of seventeen digits -/

/-- What lies inside the interval lies in it, whether its ends belong to it or not. -/
theorem Span.holds_of_lt {s : Span} {c step scale : ℕ} (low : s.low * scale < c * step * s.den)
    (high : c * step * s.den < s.high * scale) : s.holds c step scale = true := by
  unfold Span.holds
  dsimp only
  split
  · simp [low.le, high.le]
  · simp [low, high]

/-- A neighbour on the grid is found if one of the two lies in the interval. -/
theorem Span.isSome_hit?_of_holds {s : Span} {tie : Tie} {point : ℤ} {n : ℕ}
    (h : s.holds (s.value * 10 ^ (n - point).toNat / (10 ^ (point - n).toNat * s.den))
          (10 ^ (point - n).toNat) (10 ^ (n - point).toNat) = true ∨
        s.holds (s.value * 10 ^ (n - point).toNat / (10 ^ (point - n).toNat * s.den) + 1)
          (10 ^ (point - n).toNat) (10 ^ (n - point).toNat) = true) :
    (s.hit? tie point n).isSome = true := by
  simp only [Span.hit?, Nat.pow_eq]
  split
  · rfl
  · rfl
  · next below above =>
    rw [below, above] at h
    simp at h
  · split
    · rfl
    split
    · rfl
    cases tie <;> rfl

/-- A grid that is fine against an interval has a point in it next to its value: `unit` is the
    distance of the upper end from the value, and the lower end is as far away or half as far. -/
theorem exists_between_of_fine {low value high unit step : ℕ} (pos : 0 < step)
    (upper : high = value + 2 * unit)
    (fine : low + 2 * unit = value ∧ step < 4 * unit ∨ low + unit = value ∧ step < 2 * unit) :
    (low < value / step * step ∧ value / step * step < high) ∨
      low < (value / step + 1) * step ∧ (value / step + 1) * step < high := by
  have below := Nat.div_mul_le_self value step
  have above := Nat.lt_div_mul_add (a := value) pos
  rw [Nat.add_mul, Nat.one_mul]
  omega

/-- A number of seventeen digits rounds to the float: the grid is finer than the float's last
    place. -/
theorem isSome_hit? {b : Binary} (finite : b.Finite) (tie : Tie) {point : ℤ}
    (reached : (10 : ℚ) ^ (point - 1) ≤ b.mant * 2 ^ b.exp) :
    ((Span.ofBinary b).hit? tie point 17).isSome = true := by
  have den := Span.den_pos b
  have coarse : 10 ^ 16 * (10 ^ (point - (17 : ℕ)).toNat * (Span.ofBinary b).den) ≤
      (Span.ofBinary b).value * 10 ^ ((17 : ℕ) - point).toNat := by
    have grid := zpow_eq_div_toNat 10 (point - (17 : ℕ))
    have above : (10 : ℚ) ^ (point - 1) = 10 ^ 16 * ((10 : ℕ) : ℚ) ^ (point - (17 : ℕ)) := by
      have sum : point - 1 = (16 : ℕ) + (point - (17 : ℕ)) := by omega
      rw [sum, zpow_add₀ (by norm_num), zpow_natCast]
      simp only [Nat.cast_ofNat]
    rw [← Span.value_div_den, above, grid, neg_sub, ← mul_div_assoc,
      div_le_div_iff₀ (by positivity) (by exact_mod_cast den), mul_assoc] at reached
    exact_mod_cast reached
  have cell : 0 < 10 ^ (point - (17 : ℕ)).toNat * (Span.ofBinary b).den :=
    Nat.mul_pos (Nat.pow_pos (by decide)) den
  apply Span.isSome_hit?_of_holds
  generalize 10 ^ (point - (17 : ℕ)).toNat = step at *
  generalize 10 ^ ((17 : ℕ) - point).toNat = scale at *
  obtain ⟨unit, value, upper, lower⟩ := Span.ends_ofBinary finite.pos
  generalize Span.ofBinary b = s at *
  -- a quarter of the last place, on the scale of the grid
  generalize hu : unit * scale = u
  have highEnd : s.high * scale = s.value * scale + 2 * u := by
    rw [upper, Nat.add_mul, Nat.mul_assoc, hu]
  have size : s.value * scale = b.mant * (4 * u) := by
    rw [value, Nat.mul_assoc, Nat.mul_assoc, hu]
  have fine : s.low * scale + 2 * u = s.value * scale ∧ step * s.den < 4 * u ∨
      s.low * scale + u = s.value * scale ∧ step * s.den < 2 * u := by
    rcases lower with ⟨halved, lower⟩ | lower
    · rw [finite.half halved] at size
      refine .inr ⟨?_, by omega⟩
      rw [← lower, Nat.add_mul, hu]
    · have most : b.mant * (4 * u) ≤ (2 ^ 53 - 1) * (4 * u) :=
        Nat.mul_le_mul_right _ (Nat.le_sub_one_of_lt finite.bits)
      refine .inl ⟨?_, by omega⟩
      rw [← lower, Nat.add_mul, Nat.mul_assoc, hu]
  have found := exists_between_of_fine cell highEnd fine
  rw [← Nat.mul_assoc, ← Nat.mul_assoc] at found
  exact found.imp (fun h => Span.holds_of_lt h.1 h.2) fun h => Span.holds_of_lt h.1 h.2

/-! ## The shortest decimal -/

/-- A grid point is written with the point where the number has it, or one place further up. -/
theorem Numeral.point_ofGrid (c n : ℕ) (point : ℤ) :
    (Numeral.ofGrid c n point).point = point ∨ (Numeral.ofGrid c n point).point = point + 1 := by
  rw [Numeral.ofGrid]
  split
  · exact .inr rfl
  · exact .inl rfl

/-- The shortest decimal has its point where the float has it, or one place further up where it is
    rounded up to a power of ten. -/
theorem point_shortest {x : Float} (finite : (Binary.ofFloat x).Finite) (tie : Tie) :
    (shortest tie x).point =
        Int.log 10 (((Binary.ofFloat x).mant : ℚ) * 2 ^ (Binary.ofFloat x).exp) + 1 ∨
      (shortest tie x).point =
        Int.log 10 (((Binary.ofFloat x).mant : ℚ) * 2 ^ (Binary.ofFloat x).exp) + 2 := by
  unfold shortest
  dsimp only
  generalize Binary.ofFloat x = b at *
  have size : (0 : ℚ) < b.mant * 2 ^ b.exp :=
    mul_pos (by exact_mod_cast finite.pos) (zpow_pos two_pos _)
  have value : 0 < (Span.ofBinary b).value :=
    Nat.mul_pos (Nat.mul_pos (by decide) finite.pos) (Nat.two_pow_pos _)
  have enough : (Span.ofBinary b).den ≤ (Span.ofBinary b).value * 10 ^ 400 := by
    have lowest := finite.lowest
    have powers (n : ℕ) : 2 ^ (3 * n) ≤ 10 ^ n := by
      rw [pow_mul]
      exact Nat.pow_le_pow_left (by decide) n
    calc (Span.ofBinary b).den
        ≤ 2 ^ (3 * 400) := Nat.pow_le_pow_right (by decide) (by omega)
      _ ≤ 10 ^ 400 := powers 400
      _ ≤ (Span.ofBinary b).value * 10 ^ 400 := Nat.le_mul_of_pos_left _ value
  have point := pointOf_eq value (Span.den_pos b) enough
  rw [Span.value_div_den] at point
  have reached : (10 : ℚ) ^ (pointOf (Span.ofBinary b).value (Span.ofBinary b).den - 1) ≤
      b.mant * 2 ^ b.exp := by
    rw [point, Int.add_sub_cancel]
    exact_mod_cast Int.zpow_log_le_self (b := 10) (by decide) size
  -- the grid of seventeen digits is the last one that is tried
  have some : ((List.range 17).findSome? fun i =>
      ((Span.ofBinary b).hit? tie (pointOf (Span.ofBinary b).value (Span.ofBinary b).den)
        (i + 1)).map fun c => Numeral.ofGrid c (i + 1)
          (pointOf (Span.ofBinary b).value (Span.ofBinary b).den)).isSome = true := by
    rw [List.findSome?_isSome_iff]
    exact ⟨16, by decide, by simpa using isSome_hit? finite tie reached⟩
  obtain ⟨d, found⟩ := Option.isSome_iff_exists.1 some
  obtain ⟨i, -, hit⟩ := List.exists_of_findSome?_eq_some found
  obtain ⟨c, -, rfl⟩ := Option.map_eq_some_iff.1 hit
  rw [found, Option.getD_some]
  rcases Numeral.point_ofGrid c (i + 1) (pointOf (Span.ofBinary b).value (Span.ofBinary b).den) with
    same | further
  · exact .inl (same.trans point)
  · exact .inr (by rw [further, point, add_assoc]; rfl)

end BuildingControl.Decimal
