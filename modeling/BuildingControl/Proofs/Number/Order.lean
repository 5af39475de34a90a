/-
  BuildingControl.Proofs.Number.Order

  The order of floats.  A float that is a number has a rank in a linear order
  (sign, then exponent, then significand), and floats compare as their ranks do;
  what is not a number compares with nothing.  Transitivity and totality among
  numbers follow from that.  Equal floats, of which only the zeros are two, take
  each other's place in every comparison.
-/
import BuildingControl.Number
import Mathlib.Data.Prod.Lex
import Mathlib.Data.Int.Order.Basic

namespace BuildingControl.Number

open Float.Model

/-! ## Kinds of floats -/

theorem isNaN_of_isFinite {x : Float} (h : x.isFinite = true) : x.isNaN = false := by
  have h' : x.toModel.unpack.isFinite = true := h
  show x.toModel.unpack.isNaN = false
  cases hu : x.toModel.unpack with
  | notANumber =>
    rw [hu] at h'
    cases h'
  | infinity => rfl
  | zero => rfl
  | finite => rfl

theorem isInf_of_isFinite {x : Float} (h : x.isFinite = true) : x.isInf = false := by
  have h' : x.toModel.unpack.isFinite = true := h
  show x.toModel.unpack.isInf = false
  cases hu : x.toModel.unpack with
  | infinity =>
    rw [hu] at h'
    cases h'
  | notANumber => rfl
  | zero => rfl
  | finite => rfl

/-! ## Ranks -/

/-- The place of a number among all numbers: its sign, with infinities outermost, then its size. -/
def rankOf : UnpackedFloat → Option (Int ×ₗ Int ×ₗ Int)
  | .notANumber => none
  | .infinity .positive => some (toLex (2, toLex (0, 0)))
  | .infinity .negative => some (toLex (-2, toLex (0, 0)))
  | .zero _ => some (toLex (0, toLex (0, 0)))
  | .finite .positive m e _ => some (toLex (1, toLex (e, m)))
  | .finite .negative m e _ => some (toLex (-1, toLex (-e, -m)))

/-- The rank of a float, if it is a number. -/
def rank (x : Float) : Option (Int ×ₗ Int ×ₗ Int) :=
  rankOf x.toModel.unpack

/-- Exponents decide, then significands. -/
theorem isLE_then_compare (e f : Int) (m n : Nat) :
    ((compare e f).then (compare m n)).isLE = true ↔ e < f ∨ e = f ∧ m ≤ n := by
  rcases lt_trichotomy e f with h | rfl | h
  · simp [compare_lt_iff_lt.2 h, h]
  · simp [Nat.isLE_compare]
  · simp [compare_gt_iff_gt.2 h, not_lt_of_gt h, ne_of_gt h]

theorem isGE_then_compare (e f : Int) (m n : Nat) :
    ((compare e f).then (compare m n)).isGE = true ↔ f < e ∨ e = f ∧ n ≤ m := by
  rcases lt_trichotomy e f with h | rfl | h
  · simp [compare_lt_iff_lt.2 h, not_lt_of_gt h, ne_of_lt h]
  · simp [Nat.isGE_compare]
  · simp [compare_gt_iff_gt.2 h, h]

/-- Floats are ordered as their ranks are. -/
theorem le_iff_rankOf (u v : UnpackedFloat) :
    u.le v = true ↔ ∃ a b, rankOf u = some a ∧ rankOf v = some b ∧ a ≤ b := by
  rcases u with ⟨_ | _⟩ | _ | _ | ⟨_ | _, m, e, hm⟩ <;>
  rcases v with ⟨_ | _⟩ | _ | _ | ⟨_ | _, n, f, hn⟩ <;>
  dsimp only [UnpackedFloat.le, UnpackedFloat.compare, rankOf] <;>
  simp [Prod.Lex.le_iff, isLE_then_compare, isGE_then_compare]
  all_goals rfl

theorem then_compare_eq_lt (e f : Int) (m n : Nat) :
    (compare e f).then (compare m n) = .lt ↔ e < f ∨ e = f ∧ m < n := by
  rcases lt_trichotomy e f with h | rfl | h
  · simp [compare_lt_iff_lt.2 h, h]
  · simp [compare_lt_iff_lt]
  · simp [compare_gt_iff_gt.2 h, not_lt_of_gt h, ne_of_gt h]

theorem then_compare_eq_gt (e f : Int) (m n : Nat) :
    (compare e f).then (compare m n) = .gt ↔ f < e ∨ e = f ∧ n < m := by
  rcases lt_trichotomy e f with h | rfl | h
  · simp [compare_lt_iff_lt.2 h, not_lt_of_gt h, ne_of_lt h]
  · simp [compare_gt_iff_gt]
  · simp [compare_gt_iff_gt.2 h, h]

theorem lt_iff_rankOf (u v : UnpackedFloat) :
    u.lt v = true ↔ ∃ a b, rankOf u = some a ∧ rankOf v = some b ∧ a < b := by
  rcases u with ⟨_ | _⟩ | _ | _ | ⟨_ | _, m, e, hm⟩ <;>
  rcases v with ⟨_ | _⟩ | _ | _ | ⟨_ | _, n, f, hn⟩ <;>
  dsimp only [UnpackedFloat.lt, UnpackedFloat.compare, rankOf] <;>
  simp [Prod.Lex.lt_iff, then_compare_eq_lt, then_compare_eq_gt]
  all_goals rfl

/-! ## The order of floats -/

theorem le_iff_unpack {x y : Float} :
    x ≤ y ↔ x.toModel.unpack.le y.toModel.unpack = true := by
  show decide (x.toModel ≤ y.toModel) = true ↔ _
  rw [decide_eq_true_iff]
  exact Iff.rfl

theorem lt_iff_unpack {x y : Float} :
    x < y ↔ x.toModel.unpack.lt y.toModel.unpack = true := by
  show decide (x.toModel < y.toModel) = true ↔ _
  rw [decide_eq_true_iff]
  exact Iff.rfl

theorem beq_eq_compare (x y : Float) :
    (x == y) = (x.toModel.unpack.compare y.toModel.unpack == some .eq) := rfl

theorem le_iff_rank {x y : Float} :
    x ≤ y ↔ ∃ a b, rank x = some a ∧ rank y = some b ∧ a ≤ b := by
  rw [le_iff_unpack]
  exact le_iff_rankOf x.toModel.unpack y.toModel.unpack

theorem lt_iff_rank {x y : Float} :
    x < y ↔ ∃ a b, rank x = some a ∧ rank y = some b ∧ a < b := by
  rw [lt_iff_unpack]
  exact lt_iff_rankOf x.toModel.unpack y.toModel.unpack

/-- A float that is a number has a place in the order. -/
theorem exists_rank_of_isNaN {x : Float} (h : x.isNaN = false) : ∃ a, rank x = some a := by
  have h' : x.toModel.unpack.isNaN = false := h
  unfold rank
  cases hu : x.toModel.unpack with
  | notANumber =>
    rw [hu] at h'
    cases h'
  | infinity sign => cases sign <;> exact ⟨_, rfl⟩
  | zero sign => exact ⟨_, rfl⟩
  | finite sign m e pos => cases sign <;> exact ⟨_, rfl⟩

/-- A finite float is a number. -/
theorem exists_rank {x : Float} (h : x.isFinite = true) : ∃ a, rank x = some a :=
  exists_rank_of_isNaN (isNaN_of_isFinite h)

theorem lt_trans {x y z : Float} (hxy : x < y) (hyz : y < z) : x < z := by
  obtain ⟨a, b, ha, hb, hab⟩ := lt_iff_rank.1 hxy
  obtain ⟨b', c, hb', hc, hbc⟩ := lt_iff_rank.1 hyz
  rw [hb] at hb'
  cases hb'
  exact lt_iff_rank.2 ⟨a, c, ha, hc, hab.trans hbc⟩

theorem le_of_lt {x y : Float} (h : x < y) : x ≤ y := by
  obtain ⟨a, b, ha, hb, hab⟩ := lt_iff_rank.1 h
  exact le_iff_rank.2 ⟨a, b, ha, hb, hab.le⟩

/-- Of two numbers one is above the other if it is not at most the other. -/
theorem lt_of_not_le {x y : Float} (hx : x.isNaN = false) (hy : y.isNaN = false)
    (h : ¬ y ≤ x) : x < y := by
  obtain ⟨a, ha⟩ := exists_rank_of_isNaN hx
  obtain ⟨b, hb⟩ := exists_rank_of_isNaN hy
  refine lt_iff_rank.2 ⟨a, b, ha, hb, not_le.1 fun hba => ?_⟩
  exact h (le_iff_rank.2 ⟨b, a, hb, ha, hba⟩)

/-- What lies between two floats is finite. -/
theorem isFinite_of_lt_of_lt {x y z : Float} (hxy : x < y) (hyz : y < z) : y.isFinite = true := by
  obtain ⟨a, b, ha, hb, hab⟩ := lt_iff_rank.1 hxy
  obtain ⟨b', c, hb', hc, hbc⟩ := lt_iff_rank.1 hyz
  rw [hb] at hb'
  cases hb'
  -- infinities have the outermost ranks
  have outermost (u : UnpackedFloat) {r : Int ×ₗ Int ×ₗ Int} (hr : rankOf u = some r) :
      toLex (-2, toLex (0, 0)) ≤ r ∧ r ≤ toLex (2, toLex (0, 0)) := by
    rcases u with ⟨_ | _⟩ | _ | _ | ⟨_ | _, m, e, hm⟩ <;> cases hr <;> simp [Prod.Lex.le_iff]
  unfold rank at ha hb hc
  show y.toModel.unpack.isFinite = true
  cases hy : y.toModel.unpack with
  | notANumber =>
    rw [hy] at hb
    cases hb
  | infinity sign =>
    rw [hy] at hb
    cases sign with
    | positive =>
      cases hb
      exact absurd hbc (not_lt.2 (outermost _ hc).2)
    | negative =>
      cases hb
      exact absurd hab (not_lt.2 (outermost _ ha).1)
  | zero sign => rfl
  | finite sign m e pos => rfl

theorem le_refl_of_isFinite {x : Float} (h : x.isFinite = true) : x ≤ x := by
  obtain ⟨a, ha⟩ := exists_rank h
  exact le_iff_rank.2 ⟨a, a, ha, ha, le_refl a⟩

theorem le_trans {x y z : Float} (hxy : x ≤ y) (hyz : y ≤ z) : x ≤ z := by
  obtain ⟨a, b, ha, hb, hab⟩ := le_iff_rank.1 hxy
  obtain ⟨b', c, hb', hc, hbc⟩ := le_iff_rank.1 hyz
  rw [hb] at hb'
  cases hb'
  exact le_iff_rank.2 ⟨a, c, ha, hc, hab.trans hbc⟩

/-! ## Equal floats -/

/-- Equal floats are the same but for the sign of zero. -/
theorem eq_or_zero_of_beq {u v : UnpackedFloat} (h : u.beq v = true) :
    u = v ∨ (∃ s, u = .zero s) ∧ ∃ t, v = .zero t := by
  have equal : u.compare v = some .eq := beq_iff_eq.1 h
  rcases u with ⟨_ | _⟩ | _ | _ | ⟨_ | _, m, e, hm⟩ <;>
  rcases v with ⟨_ | _⟩ | _ | _ | ⟨_ | _, n, f, hn⟩ <;>
  dsimp only [UnpackedFloat.compare] at equal <;>
  simp only [reduceCtorEq, Option.some.injEq, Ordering.swap_eq_eq, Ordering.then_eq_eq,
    compare_eq_iff_eq] at equal
  all_goals first
    | exact .inl rfl
    | exact .inr ⟨⟨_, rfl⟩, _, rfl⟩
    | obtain ⟨rfl, rfl⟩ := equal
      exact .inl rfl

theorem compare_zero_right (w : UnpackedFloat) (s t : UnpackedFloat.Sign) :
    w.compare (.zero s) = w.compare (.zero t) := by
  rcases w with ⟨_ | _⟩ | _ | _ | ⟨_ | _, _⟩ <;> rfl

theorem compare_zero_left (w : UnpackedFloat) (s t : UnpackedFloat.Sign) :
    UnpackedFloat.compare (.zero s) w = UnpackedFloat.compare (.zero t) w := by
  rcases w with ⟨_ | _⟩ | _ | _ | ⟨_ | _, _⟩ <;> rfl

/-- Equal floats compare alike with every float, on either side. -/
theorem compare_eq_of_beq {u v : UnpackedFloat} (h : u.beq v = true) (w : UnpackedFloat) :
    w.compare u = w.compare v ∧ u.compare w = v.compare w := by
  rcases eq_or_zero_of_beq h with rfl | ⟨⟨s, rfl⟩, ⟨t, rfl⟩⟩
  · exact ⟨rfl, rfl⟩
  · exact ⟨compare_zero_right w s t, compare_zero_left w s t⟩

theorem isFinite_eq_of_beq {x y : Float} (h : (x == y) = true) : x.isFinite = y.isFinite := by
  show x.toModel.unpack.isFinite = y.toModel.unpack.isFinite
  rcases eq_or_zero_of_beq (u := x.toModel.unpack) h with same | ⟨⟨s, hx⟩, ⟨t, hy⟩⟩
  · rw [same]
  · rw [hx, hy]
    rfl

end BuildingControl.Number
