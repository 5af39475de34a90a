/-
  BuildingControl.Proofs.Decimal.Digit

  Whole numbers in digits: which digits a number is written with, what they are
  worth, and where a span of digits ends.
-/
import BuildingControl.Decimal.Layout
import BuildingControl.Decimal.Reading

namespace BuildingControl.Decimal

/-! ## Spans -/

/-- A text that does not go on with a digit. -/
def NoDigit (rest : List Char) : Prop :=
  ∀ c, rest.head? = some c → c.isDigit = false

/-- What follows a span of digits and is none itself is left over. -/
theorem spanDigits_append (cs : List Char) {rest : List Char} (h : NoDigit rest) :
    spanDigits (cs ++ rest) = ((spanDigits cs).1, (spanDigits cs).2 ++ rest) := by
  induction cs with
  | nil =>
    cases rest with
    | nil => rfl
    | cons c rest =>
      have hc : c.isDigit = false := h c rfl
      simp [spanDigits, hc]
  | cons c cs ih =>
    cases hc : c.isDigit with
    | false => simp [spanDigits, hc]
    | true => simp [spanDigits, hc, ih]

theorem spanDigits_of_all {cs : List Char} (h : ∀ c ∈ cs, c.isDigit = true) :
    spanDigits cs = (cs, []) := by
  induction cs with
  | nil => rfl
  | cons c cs ih =>
    have hc : c.isDigit = true := h c List.mem_cons_self
    have rest : spanDigits cs = (cs, []) := ih fun d hd => h d (List.mem_cons_of_mem c hd)
    simp [spanDigits, hc, rest]

/-! ## The digits of a number -/

theorem isDigit_of_mem_digitChars {n : Nat} {c : Char} (h : c ∈ digitChars n) :
    c.isDigit = true :=
  Nat.isDigit_of_mem_toDigits (by decide) (by decide) h

theorem digitChars_ne_nil (n : Nat) : digitChars n ≠ [] :=
  Nat.toDigits_ne_nil

theorem digitsValue_digitChars (n : Nat) : digitsValue (digitChars n) = n := by
  have value := Nat.ofDigitChars_ten_toDigits (n := n)
  rw [Nat.ofDigitChars_eq_foldl] at value
  exact value

theorem digitChar_ne_zero : ∀ d < 10, 0 < d → Nat.digitChar d ≠ '0' := by
  decide

/-- Only zero is written with a zero in front. -/
theorem head?_digitChars_ne_zero {n : Nat} (h : 0 < n) : (digitChars n).head? ≠ some '0' := by
  induction n using Nat.strongRecOn with
  | _ n ih =>
    by_cases small : n < 10
    · rw [digitChars, Nat.toDigits_of_lt_base small]
      intro zero
      exact digitChar_ne_zero n small h (Option.some_inj.1 zero)
    · -- all digits but the last are those of a tenth of the number
      have shorter : (digitChars (n / 10)).head? ≠ some '0' := ih (n / 10) (by omega) (by omega)
      obtain ⟨d, more, front⟩ := List.exists_cons_of_ne_nil (digitChars_ne_nil (n / 10))
      have parts : digitChars n = digitChars (n / 10) ++ [Nat.digitChar (n % 10)] :=
        Nat.toDigits_of_base_le (by decide) (by omega)
      rw [parts, front]
      rw [front] at shorter
      exact shorter

end BuildingControl.Decimal
