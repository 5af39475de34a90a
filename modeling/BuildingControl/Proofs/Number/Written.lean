/-
  BuildingControl.Proofs.Number.Written

  The shape of numbers in program text: an optional minus, then a digit, digits
  and points, and at most one exponent at the end.  Which digits they are does
  not matter here.
-/
import BuildingControl.Number
import BuildingControl.Proofs.Decimal.Digit
import BuildingControl.Proofs.Number.Order
import BuildingControl.Proofs.Text.Trim

namespace BuildingControl.Number

open Decimal

/-- The characters of a numeral before its exponent. -/
def isNumeralChar (c : Char) : Bool :=
  c.isDigit || c == '.'

/-- An exponent with its mark, or nothing. -/
inductive IsExponent : List Char → Prop
  | none : IsExponent []
  | some {sign digits : List Char} (sign_minus : sign = [] ∨ sign = ['-']) (nonempty : digits ≠ [])
      (digit : ∀ c ∈ digits, c.isDigit = true) : IsExponent ('e' :: (sign ++ digits))

/-- Characters that a number without sign is written with. -/
inductive IsNumeral : List Char → Prop
  | mk {first : Char} {more exponent : List Char} (digit : first.isDigit = true)
      (numeral : ∀ c ∈ more, isNumeralChar c = true) (tail : IsExponent exponent) :
      IsNumeral (first :: (more ++ exponent))

/-! ## Digits -/

theorem isNumeralChar_of_isDigit {c : Char} (h : c.isDigit = true) : isNumeralChar c = true := by
  simp [isNumeralChar, h]

/-! ## The two notations -/

/-- Characters that are numeral characters throughout, the first a digit, are a numeral. -/
theorem IsNumeral.of_all {cs : List Char} (numeral : cs.all isNumeralChar = true)
    {first : Char} {more : List Char} (hcs : cs = first :: more) (digit : first.isDigit = true) :
    IsNumeral cs := by
  subst hcs
  have h := IsNumeral.mk digit (fun c hc => List.all_eq_true.1 numeral c (List.mem_cons_of_mem _ hc)) .none
  rwa [List.append_nil] at h

theorem isNumeral_plain (l : Layout) {digits : List Char} (nonempty : digits ≠ [])
    (digit : ∀ c ∈ digits, c.isDigit = true) (point : Int) : IsNumeral (l.plain digits point) := by
  have zeros (n : Nat) : ∀ c ∈ List.replicate n '0', c.isDigit = true := fun c hc => by
    rw [List.eq_of_mem_replicate hc]
    rfl
  obtain ⟨d, ds, rfl⟩ := List.exists_cons_of_ne_nil nonempty
  have hd : d.isDigit = true := digit d List.mem_cons_self
  rw [Layout.plain]
  split
  · -- the point before the digits
    refine IsNumeral.of_all (List.all_eq_true.2 fun c hc => ?_) rfl rfl
    rcases List.mem_cons.1 hc with rfl | hc
    · rfl
    rcases List.mem_cons.1 hc with rfl | hc
    · rfl
    rcases List.mem_append.1 hc with hc | hc
    · exact isNumeralChar_of_isDigit (zeros _ c hc)
    · exact isNumeralChar_of_isDigit (digit c hc)
  · next hp =>
    dsimp only
    split
    · -- the point after the digits
      refine IsNumeral.of_all (List.all_eq_true.2 fun c hc => ?_) rfl hd
      rcases List.mem_append.1 hc with hc | hc
      · rcases List.mem_append.1 hc with hc | hc
        · exact isNumeralChar_of_isDigit (digit c hc)
        · exact isNumeralChar_of_isDigit (zeros _ c hc)
      · split at hc
        · simp only [List.mem_cons, List.not_mem_nil, or_false] at hc
          rcases hc with rfl | rfl <;> rfl
        · cases hc
    · -- the point inside the digits
      obtain ⟨n, hn⟩ : ∃ n, point.toNat = n + 1 := ⟨point.toNat - 1, by omega⟩
      have front : (d :: ds).take point.toNat = d :: ds.take n := by rw [hn, List.take_succ_cons]
      refine IsNumeral.of_all (List.all_eq_true.2 fun c hc => ?_) (by rw [front]; rfl : _ = d :: _) hd
      rcases List.mem_append.1 hc with hc | hc
      · exact isNumeralChar_of_isDigit (digit c (List.mem_of_mem_take hc))
      rcases List.mem_cons.1 hc with rfl | hc
      · rfl
      · exact isNumeralChar_of_isDigit (digit c (List.mem_of_mem_drop hc))

theorem isNumeral_scientific {l : Layout} (plain : l.plusSign = false) {digits : List Char}
    (nonempty : digits ≠ []) (digit : ∀ c ∈ digits, c.isDigit = true) (point : Int) :
    IsNumeral (l.scientific digits point) := by
  obtain ⟨d, ds, rfl⟩ := List.exists_cons_of_ne_nil nonempty
  have hd : d.isDigit = true := digit d List.mem_cons_self
  have exponent (e : Int) :
      IsExponent ('e' :: ((if e < 0 then ['-'] else []) ++ digitChars e.natAbs)) := by
    refine .some ?_ (digitChars_ne_nil _) fun c hc => isDigit_of_mem_digitChars hc
    split
    · exact .inr rfl
    · exact .inl rfl
  have parts : l.scientific (d :: ds) point =
      d :: ((match ds with | [] => [] | x :: xs => '.' :: x :: xs) ++
        'e' :: ((if point - 1 < 0 then ['-'] else []) ++ digitChars (point - 1).natAbs)) := by
    cases ds <;> simp [Layout.scientific, plain]
  rw [parts]
  refine .mk hd (fun c hc => ?_) (exponent _)
  cases ds with
  | nil => cases hc
  | cons x xs =>
    rcases List.mem_cons.1 hc with rfl | hc
    · rfl
    · exact isNumeralChar_of_isDigit (digit c (List.mem_cons_of_mem d hc))

/-! ## Numbers in program text -/

/-- A finite number is written as a numeral with an optional minus in front. -/
theorem format_of_isFinite {x : Float} (h : x.isFinite = true) :
    ∃ sign cs, (format x).toList = sign ++ cs ∧ (sign = [] ∨ sign = ['-']) ∧ IsNumeral cs := by
  have numeral : IsNumeral (programLayout.magnitude x) := by
    rw [Layout.magnitude]
    split
    · exact isNumeral_plain programLayout (by simp) (List.all_eq_true.1 (by decide)) 1
    · dsimp only
      split
      · exact isNumeral_plain programLayout (digitChars_ne_nil _)
          (fun c hc => isDigit_of_mem_digitChars hc) _
      · exact isNumeral_scientific rfl (digitChars_ne_nil _)
          (fun c hc => isDigit_of_mem_digitChars hc) _
  have written : (format x).toList = programLayout.chars x := toList_write programLayout x
  rw [written, Layout.chars, if_neg (ne_true_of_eq_false (isNaN_of_isFinite h)), isInf_of_isFinite h]
  simp only [Bool.false_eq_true, if_false]
  split
  · exact ⟨['-'], _, rfl, .inr rfl, numeral⟩
  · exact ⟨[], _, rfl, .inl rfl, numeral⟩

/-- The characters of finite numbers in program text. -/
def isNumberChar (c : Char) : Bool :=
  c.isDigit || c == '.' || c == '-' || c == 'e'

theorem IsExponent.isNumberChar {cs : List Char} (h : IsExponent cs) :
    ∀ c ∈ cs, isNumberChar c = true := by
  cases h with
  | none => simp
  | some sign_minus nonempty digit =>
    intro c hc
    rcases List.mem_cons.1 hc with rfl | hc
    · rfl
    rcases List.mem_append.1 hc with hc | hc
    · rcases sign_minus with rfl | rfl
      · cases hc
      · rw [List.mem_singleton.1 hc]
        rfl
    · simp [Number.isNumberChar, digit c hc]

theorem IsNumeral.isNumberChar {cs : List Char} (h : IsNumeral cs) :
    ∀ c ∈ cs, isNumberChar c = true := by
  cases h with
  | mk digit numeral tail =>
    intro c hc
    rcases List.mem_cons.1 hc with rfl | hc
    · simp [Number.isNumberChar, digit]
    rcases List.mem_append.1 hc with hc | hc
    · have plain : isNumeralChar c = true := numeral c hc
      unfold isNumeralChar at plain
      simp [Number.isNumberChar, plain]
    · exact tail.isNumberChar c hc

/-- A finite number is written with digits, points, minus signs and `e` only. -/
theorem isNumberChar_of_mem_format {x : Float} (h : x.isFinite = true) :
    ∀ c ∈ (format x).toList, isNumberChar c = true := by
  obtain ⟨sign, cs, hx, hsign, numeral⟩ := format_of_isFinite h
  intro c hc
  rw [hx] at hc
  rcases List.mem_append.1 hc with hc | hc
  · rcases hsign with rfl | rfl
    · cases hc
    · rw [List.mem_singleton.1 hc]
      rfl
  · exact numeral.isNumberChar c hc

/-- The text of a finite number is not empty. -/
theorem format_ne_nil {x : Float} (h : x.isFinite = true) : (format x).toList ≠ [] := by
  obtain ⟨sign, cs, hx, -, numeral⟩ := format_of_isFinite h
  cases numeral with
  | mk digit numeral tail => simp [hx]

theorem not_isBlank_of_isNumberChar {c : Char} (h : isNumberChar c = true) :
    Text.isBlank c = false := by
  simp only [isNumberChar, Bool.or_eq_true, beq_iff_eq] at h
  rcases h with ((h | rfl) | rfl) | rfl
  · have range : 48 ≤ c.toNat ∧ c.toNat ≤ 57 := Char.isDigit_iff_toNat.1 h
    simp only [Text.isBlank, Text.blankRanges, List.any_cons, List.any_nil, Bool.or_false,
      Bool.or_eq_false_iff, Bool.and_eq_false_iff, decide_eq_false_iff_not]
    omega
  all_goals decide

/-- The text of a finite number has no blanks to trim. -/
theorem trimmed_format {x : Float} (h : x.isFinite = true) :
    Text.trimChars (format x).toList = (format x).toList :=
  Text.trimChars_of_no_blank fun c hc =>
    not_isBlank_of_isNumberChar (isNumberChar_of_mem_format h c hc)

end BuildingControl.Number
