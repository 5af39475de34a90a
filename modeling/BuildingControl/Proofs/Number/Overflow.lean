/-
  BuildingControl.Proofs.Number.Overflow

  Where arithmetic on floats leaves the finite numbers.  A product of finite floats is
  finite exactly when the exact one is below the bound of overflow
  (`isFinite_mul_iff`), and so is a difference (`isFinite_sub`); a quotient is finite
  when the divisor is two or more (`isFinite_div`).  A factor that is finite and not
  zero makes a number of a number, and nothing finite of what is not (`Scales`).
-/
import BuildingControl.Proofs.Number.NonFinite
import BuildingControl.Proofs.Number.Rounding

namespace BuildingControl.Number

open Float.Model (Format UnpackedFloat totalExponent)
open Float.Model.UnpackedFloat

/-! ## Finite floats -/

/-- A sign as a factor. -/
def unit : Sign → ℚ
  | .positive => 1
  | .negative => -1

@[simp] theorem abs_unit (s : Sign) : |unit s| = 1 := by
  cases s <;> simp [unit]

@[simp] theorem unit_mul (s t : Sign) : unit (s * t) = unit s * unit t := by
  cases s <;> cases t <;> simp [unit]

theorem exactOf_finite (s : Sign) (m : ℕ) (e : ℤ) (pos : 0 < m) :
    exactOf (.finite s m e pos) = unit s * (m * 2 ^ e) := by
  cases s <;> simp [exactOf, unit]

/-- A finite float is a zero, or it has a sign, a significand and an exponent. -/
theorem finite_cases {x : Float} (finite : x.isFinite = true) :
    (∃ s, x.toModel.unpack = .zero s) ∨ ∃ s m e pos, x.toModel.unpack = .finite s m e pos := by
  have h : x.toModel.unpack.isFinite = true := finite
  cases u : x.toModel.unpack with
  | zero s => exact .inl ⟨s, rfl⟩
  | finite s m e pos => exact .inr ⟨s, m, e, pos, rfl⟩
  | infinity s =>
    rw [u] at h
    cases h
  | notANumber =>
    rw [u] at h
    cases h

theorem exact_of_zero {x : Float} {s : Sign} (h : x.toModel.unpack = .zero s) : exact x = 0 := by
  rw [exact, h]
  rfl

/-- A finite float that is not zero has a sign, a significand and an exponent. -/
theorem exists_unpack {x : Float} (finite : x.isFinite = true) (nonzero : exact x ≠ 0) :
    ∃ s m e pos, x.toModel.unpack = .finite s m e pos :=
  (finite_cases finite).resolve_left fun ⟨_, h⟩ => nonzero (exact_of_zero h)

theorem exact_of_unpack {x : Float} {s : Sign} {m : ℕ} {e : ℤ} {pos : 0 < m}
    (h : x.toModel.unpack = .finite s m e pos) : exact x = unit s * (m * 2 ^ e) := by
  rw [exact, h, exactOf_finite]

/-- The size of a finite float is that of its significand at its place. -/
theorem abs_exact {x : Float} {s : Sign} {m : ℕ} {e : ℤ} {pos : 0 < m}
    (h : x.toModel.unpack = .finite s m e pos) : |exact x| = m * 2 ^ e := by
  rw [exact_of_unpack h, abs_mul, abs_unit, one_mul, abs_of_nonneg (by positivity)]

/-! ## Products -/

theorem unpack_mul (x y : Float) :
    (x * y).toModel.unpack = stored (mul Format.binary64 x.toModel.unpack y.toModel.unpack) := rfl

/-- The bits of a product of floats reach so far that none is lost above. -/
theorem Placed.mul_fits {m n : ℕ} {e f : ℤ} (hm : Placed m e) (hn : Placed n f) :
    e + f ≤ 971 ∨ 52 ≤ (m * n).log2 := by
  have he := hm.highest
  have hf := hn.highest
  -- both have all their bits, or one of them stands at the lowest place
  rcases hm.full with fullM | rfl
  · rcases hn.full with fullN | rfl
    · have long : 2 ^ 52 ≤ m * n := fullM.trans (Nat.le_mul_of_pos_right m (by omega))
      exact .inr ((Nat.le_log2 (by omega)).2 long)
    · exact .inl (by omega)
  · exact .inl (by omega)

section Finite

variable {x y : Float} {s t : Sign} {m n : ℕ} {e f : ℤ} {mpos : 0 < m} {npos : 0 < n}
  (hx : x.toModel.unpack = .finite s m e mpos) (hy : y.toModel.unpack = .finite t n f npos)

include hx hy

theorem unpack_mul_finite : (x * y).toModel.unpack =
    stored (roundWithAccuracy Format.binary64 (s * t) (m * n) (e + f) .exact) := by
  rw [unpack_mul, hx, hy]
  rfl

theorem exact_mul_exact : exact x * exact y = unit (s * t) * ((m * n : ℕ) * 2 ^ (e + f)) := by
  rw [exact_of_unpack hx, exact_of_unpack hy, unit_mul, zpow_add₀ two_ne_zero, Nat.cast_mul]
  ring

end Finite

/-- A product of finite floats is finite exactly when the exact product is not too large. -/
theorem isFinite_mul_iff {x y : Float} (hx : x.isFinite = true) (hy : y.isFinite = true) :
    (x * y).isFinite = true ↔ |exact x * exact y| < overflow := by
  have room := overflow_pos
  show (x * y).toModel.unpack.isFinite = true ↔ _
  rcases finite_cases hx with ⟨s, hx⟩ | ⟨s, m, e, mpos, hx⟩
  · rw [exact_of_zero hx, zero_mul, abs_zero, unpack_mul, hx]
    refine iff_of_true ?_ room
    rcases finite_cases hy with ⟨t, hy⟩ | ⟨t, n, f, npos, hy⟩ <;>
      rw [hy] <;> exact congrArg isFinite (stored_zero (s * t))
  · rcases finite_cases hy with ⟨t, hy⟩ | ⟨t, n, f, npos, hy⟩
    · rw [exact_of_zero hy, mul_zero, abs_zero, unpack_mul, hx, hy]
      exact iff_of_true (congrArg isFinite (stored_zero (s * t))) room
    · rw [unpack_mul_finite hx hy, exact_mul_exact hx hy, abs_mul, abs_unit, one_mul,
        abs_of_nonneg (by positivity)]
      exact isFinite_stored_iff (Nat.mul_pos mpos npos)
        ((placed_of_unpack hx).mul_fits (placed_of_unpack hy))

theorem eq_infinity_of_unpack {x : Float} (h : x.toModel.unpack = .infinity .positive) :
    x = infinity := by
  have special : x.isFinite = false := by
    show x.toModel.unpack.isFinite = false
    rw [h]
    rfl
  rcases eq_of_not_isFinite special with rfl | rfl | rfl
  · rfl
  · cases h
  · cases h

/-- A positive product that is too large is infinite. -/
theorem mul_eq_infinity {x y : Float} (hx : x.isFinite = true) (hy : y.isFinite = true)
    (large : overflow ≤ exact x * exact y) : x * y = infinity := by
  have room := overflow_pos
  have lost : ¬ (x * y).isFinite = true := by
    rw [isFinite_mul_iff hx hy]
    exact not_lt_of_ge (large.trans (le_abs_self _))
  have positive := room.trans_le large
  obtain ⟨s, m, e, mpos, hx⟩ := exists_unpack hx (left_ne_zero_of_mul positive.ne')
  obtain ⟨t, n, f, npos, hy⟩ := exists_unpack hy (right_ne_zero_of_mul positive.ne')
  -- the exact product is positive, so the signs agree
  have sign : s * t = .positive := by
    cases h : s * t with
    | positive => rfl
    | negative =>
      rw [exact_mul_exact hx hy, h] at positive
      have size : (0 : ℚ) ≤ (m * n : ℕ) * 2 ^ (e + f) := by positivity
      simp only [unit, neg_one_mul, Left.neg_pos_iff] at positive
      exact absurd positive (not_lt_of_ge size)
  apply eq_infinity_of_unpack
  rw [← sign]
  have product := unpack_mul_finite hx hy
  rcases stored_cases (s * t) (m * n) (e + f) .exact with zero | infinite | ⟨_, _, _, finite⟩
  · exact absurd (congrArg UnpackedFloat.isFinite (product.trans zero)) lost
  · exact product.trans infinite
  · exact absurd (congrArg UnpackedFloat.isFinite (product.trans finite)) lost

/-! ## Scaling -/

/-- Arithmetic that keeps infinities and zeros and rounds what it makes of a finite number. -/
structure Scales (op : UnpackedFloat → UnpackedFloat) : Prop where
  notANumber : op .notANumber = .notANumber
  infinity : ∀ s, ∃ t, op (.infinity s) = .infinity t
  zero : ∀ s, ∃ t, op (.zero s) = .zero t
  finite : ∀ s m e pos, ∃ t n f a, op (.finite s m e pos) =
    roundWithAccuracy Format.binary64 t n f a

theorem Scales.isNaN {op : UnpackedFloat → UnpackedFloat} (scales : Scales op) {u : UnpackedFloat}
    (number : u.isNaN = false) : (stored (op u)).isNaN = false := by
  cases u with
  | notANumber => cases number
  | infinity s =>
    obtain ⟨t, h⟩ := scales.infinity s
    rw [h, stored_infinity]
    rfl
  | zero s =>
    obtain ⟨t, h⟩ := scales.zero s
    rw [h, stored_zero]
    rfl
  | finite s m e pos =>
    obtain ⟨t, n, f, a, h⟩ := scales.finite s m e pos
    rw [h]
    exact isNaN_stored t n f a

theorem Scales.isFinite {op : UnpackedFloat → UnpackedFloat} (scales : Scales op)
    {u : UnpackedFloat} (finite : (stored (op u)).isFinite = true) : u.isFinite = true := by
  cases u with
  | notANumber =>
    rw [scales.notANumber, stored_notANumber] at finite
    cases finite
  | infinity s =>
    obtain ⟨t, h⟩ := scales.infinity s
    rw [h, stored_infinity] at finite
    cases finite
  | zero s => rfl
  | finite s m e pos => rfl

theorem unpack_div (x y : Float) :
    (x / y).toModel.unpack = stored (div Format.binary64 x.toModel.unpack y.toModel.unpack) := rfl

/-- Infinity divided by a positive number stays infinity. -/
theorem infinity_div {y : Float} (hy : y.isFinite = true) (pos : 0 < exact y) :
    infinity / y = infinity := by
  obtain ⟨t, n, f, npos, h⟩ := exists_unpack hy pos.ne'
  apply eq_infinity_of_unpack
  rw [unpack_div, h]
  cases t with
  | positive => exact stored_infinity .positive
  | negative =>
    have size : (0 : ℚ) ≤ n * 2 ^ f := by positivity
    rw [exact_of_unpack h, unit, neg_one_mul, Left.neg_pos_iff] at pos
    exact absurd pos (not_lt_of_ge size)

section Factor

variable {x y : Float} (hy : y.isFinite = true) (nonzero : exact y ≠ 0)

include hy nonzero

theorem scales_mul : Scales fun u => mul Format.binary64 u y.toModel.unpack := by
  obtain ⟨t, n, f, pos, h⟩ := exists_unpack hy nonzero
  rw [h]
  exact ⟨rfl, fun s => ⟨_, rfl⟩, fun s => ⟨_, rfl⟩, fun s m e _ => ⟨_, _, _, _, rfl⟩⟩

theorem scales_div : Scales fun u => div Format.binary64 u y.toModel.unpack := by
  obtain ⟨t, n, f, pos, h⟩ := exists_unpack hy nonzero
  rw [h]
  exact ⟨rfl, fun s => ⟨_, rfl⟩, fun s => ⟨_, rfl⟩, fun s m e _ => ⟨_, _, _, _, rfl⟩⟩

/-- A number times a finite one that is not zero is a number. -/
theorem isNaN_mul (hx : x.isNaN = false) : (x * y).isNaN = false :=
  (scales_mul hy nonzero).isNaN hx

/-- A number divided by a finite one that is not zero is a number. -/
theorem isNaN_div (hx : x.isNaN = false) : (x / y).isNaN = false :=
  (scales_div hy nonzero).isNaN hx

theorem isFinite_of_mul (h : (x * y).isFinite = true) : x.isFinite = true :=
  (scales_mul hy nonzero).isFinite h

theorem isFinite_of_div (h : (x / y).isFinite = true) : x.isFinite = true :=
  (scales_div hy nonzero).isFinite h

end Factor

/-! ## Quotients -/

/-- A quotient by two or more does not reach the places above the floats. -/
theorem lastPlace_divCore {m n : ℕ} {e f : ℤ} (hm : Placed m e) (npos : 0 < n)
    (two : 1 ≤ (n.log2 : ℤ) + f) :
    lastPlace (divCore Format.binary64 m e n f).1 (divCore Format.binary64 m e n f).2.1
      (divCore Format.binary64 m e n f).2.2 < 972 := by
  have target : Format.binary64.targetExponent (totalExponent m e - totalExponent n f) =
      max ((m.log2 : ℤ) + 1 + e - (n.log2 + 1 + f) - 53) (-1074) := rfl
  unfold divCore
  rw [target]
  dsimp only
  generalize hg : min (e - f) (max ((m.log2 : ℤ) + 1 + e - (n.log2 + 1 + f) - 53) (-1074)) = g
  generalize hk : (e - f - g).toNat = k
  generalize hq : m <<< k / n = q
  have highest := hm.highest
  have short : m.log2 ≤ 52 := by
    by_cases zero : m = 0
    · rw [zero]
      decide
    · have := (Nat.log2_lt zero).2 hm.bits
      omega
  -- the quotient has at most as many bits as the dividend has more than the divisor, and one
  have length : q = 0 ∨ q.log2 + n.log2 < m.log2 + 1 + k := by
    by_cases zero : q = 0
    · exact .inl zero
    · refine .inr ((Nat.pow_lt_pow_iff_right (by omega : 1 < 2)).1 ?_)
      calc 2 ^ (q.log2 + n.log2) = 2 ^ q.log2 * 2 ^ n.log2 := Nat.pow_add 2 _ _
        _ ≤ q * n := Nat.mul_le_mul (Nat.log2_self_le zero) (Nat.log2_self_le (by omega))
        _ ≤ m * 2 ^ k := by
            rw [← hq, Nat.shiftLeft_eq]
            exact Nat.div_mul_le_self _ _
        _ < 2 ^ (m.log2 + 1) * 2 ^ k :=
            Nat.mul_lt_mul_of_pos_right Nat.lt_log2_self (Nat.two_pow_pos k)
        _ = 2 ^ (m.log2 + 1 + k) := (Nat.pow_add 2 _ _).symm
  have low : place q g ≤ 970 := by
    unfold place
    rcases length with zero | length
    · have bits : q.log2 = 0 := by
        rw [zero]
        decide
      omega
    · omega
  rw [lastPlace_eq]
  split <;> omega

/-- A finite float divided by two or more is finite. -/
theorem isFinite_div {x y : Float} (hx : x.isFinite = true) (hy : y.isFinite = true)
    (two : 2 ≤ |exact y|) : (x / y).isFinite = true := by
  show (x / y).toModel.unpack.isFinite = true
  have nonzero : exact y ≠ 0 := by
    intro zero
    rw [zero, abs_zero] at two
    exact absurd two (by norm_num)
  obtain ⟨t, n, f, npos, hy⟩ := exists_unpack hy nonzero
  rcases finite_cases hx with ⟨s, hx⟩ | ⟨s, m, e, mpos, hx⟩
  · rw [unpack_div, hx, hy]
    exact congrArg UnpackedFloat.isFinite (stored_zero (s / t))
  · have reach : 1 ≤ (n.log2 : ℤ) + f := by
      rw [abs_exact hy] at two
      have below := two.trans_lt (value_lt n f)
      rw [← zpow_one 2] at below
      have := (zpow_lt_zpow_iff_right₀ (one_lt_two : (1 : ℚ) < 2)).1 below
      omega
    rw [unpack_div, hx, hy]
    exact isFinite_stored_of_lastPlace (s / t) (lastPlace_divCore (placed_of_unpack hx) npos reach)

/-! ## Differences -/

theorem cast_apply (s : Sign) (m : ℕ) : ((s.apply m : ℤ) : ℚ) = unit s * m := by
  cases s <;> simp [Sign.apply, unit]

section Difference

variable {x y : Float} {s t : Sign} {m n : ℕ} {e f : ℤ} {mpos : 0 < m} {npos : 0 < n}
  (hx : x.toModel.unpack = .finite s m e mpos) (hy : y.toModel.unpack = .finite t n f npos)

include hx hy

/-- A difference is the exact one, in units of the lower of the two places, rounded. -/
theorem exists_difference : ∃ z : ℤ,
    (x - y).toModel.unpack = stored (UnpackedFloat.normalize Format.binary64 z (min e f) .positive) ∧
      (z : ℚ) * 2 ^ min e f = exact x - exact y := by
  refine ⟨s.apply (m * 2 ^ (e - min e f).toNat : ℕ) - t.apply (n * 2 ^ (f - min e f).toNat : ℕ),
    ?_, ?_⟩
  · show stored (sub Format.binary64 x.toModel.unpack y.toModel.unpack) = _
    rw [hx, hy]
    simp only [sub, decreaseExponent, Nat.shiftLeft_eq]
  · have left := value_shift m (e - min e f).toNat e
    have right := value_shift n (f - min e f).toNat f
    have lower : e - ((e - min e f).toNat : ℤ) = min e f := by omega
    have lower' : f - ((f - min e f).toNat : ℤ) = min e f := by omega
    rw [lower] at left
    rw [lower'] at right
    rw [exact_of_unpack hx, exact_of_unpack hy, ← left, ← right, Int.cast_sub, cast_apply,
      cast_apply]
    ring

/-- A difference of finite floats is finite when the exact difference is not too large. -/
theorem isFinite_sub (small : |exact x - exact y| < overflow) : (x - y).isFinite = true := by
  obtain ⟨z, difference, value⟩ := exists_difference hx hy
  have highest := (placed_of_unpack hx).highest
  show (x - y).toModel.unpack.isFinite = true
  rw [difference, normalize_eq]
  by_cases zero : z = 0
  · rw [if_pos zero, stored_zero]
    rfl
  · rw [if_neg zero]
    refine (isFinite_stored_round_iff (by omega) (by omega)).2 ?_
    rwa [Nat.cast_natAbs, Int.cast_abs, ← abs_of_pos (a := (2 : ℚ) ^ min e f) (by positivity),
      ← abs_mul, value]

/-- A difference is below twice a power of two that bounds the exact difference. -/
theorem abs_exact_sub_lt {c : ℤ} (range : -1021 ≤ c ∧ c ≤ 1023)
    (small : |exact x - exact y| < 2 ^ c) : |exact (x - y)| < 2 ^ (c + 1) := by
  obtain ⟨z, difference, value⟩ := exists_difference hx hy
  rw [exact, difference, normalize_eq]
  by_cases zero : z = 0
  · rw [if_pos zero, stored_zero]
    simp only [exactOf, abs_zero]
    positivity
  · rw [if_neg zero]
    refine abs_exactOf_stored_round_lt (by omega) ?_ range
    rwa [Nat.cast_natAbs, Int.cast_abs, ← abs_of_pos (a := (2 : ℚ) ^ min e f) (by positivity),
      ← abs_mul, value]

/-- A difference has the sign of the exact difference. -/
theorem exact_sub_nonneg (le : exact y ≤ exact x) : 0 ≤ exact (x - y) := by
  obtain ⟨z, difference, value⟩ := exists_difference hx hy
  have nonneg : ¬ z < 0 := by
    intro below
    have negative : (z : ℚ) < 0 := by exact_mod_cast below
    have := mul_neg_of_neg_of_pos negative (by positivity : (0 : ℚ) < 2 ^ min e f)
    rw [value] at this
    exact absurd le (not_le_of_gt (sub_neg.1 this))
  rw [exact, difference, normalize_eq, if_neg nonneg]
  split
  · rw [stored_zero]
    exact le_refl 0
  · obtain ⟨k, shifted, -⟩ := round_eq .positive z.natAbs (min e f)
    rw [shifted]
    exact exactOf_stored_nonneg _ _ _

end Difference

end BuildingControl.Number
