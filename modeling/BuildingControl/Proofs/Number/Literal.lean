/-
  BuildingControl.Proofs.Number.Literal

  The texts of numbers as decimal literals: digits, then a fraction, an exponent or
  both.  A number that is not below zero is one literal without sign
  (`isSome_literal?_iff`).  A number whose text is two digits or more and the text of
  another number is the larger of the two (`exact_lt_of_append`).
-/
import BuildingControl.Proofs.Decimal.Shortest
import BuildingControl.Proofs.Number.Fields

namespace BuildingControl.Number

open Decimal

/-! ## Parts of a literal -/

/-- A fraction with its point, or nothing. -/
inductive IsFraction : List Char → Prop
  | none : IsFraction []
  | some {digits : List Char} (digit : ∀ c ∈ digits, c.isDigit = true) : IsFraction ('.' :: digits)

/-- A literal by its parts: digits, a fraction and an exponent. -/
structure IsLiteral (whole fraction exponent : List Char) : Prop where
  nonempty : whole ≠ []
  digit : ∀ c ∈ whole, c.isDigit = true
  isFraction : IsFraction fraction
  isExponent : IsExponent exponent

theorem IsExponent.noDigit {cs : List Char} (h : IsExponent cs) : NoDigit cs := by
  cases h with
  | none => exact fun c hc => by cases hc
  | some => exact fun c hc => by cases hc; rfl

theorem IsFraction.noDigit {fraction exponent : List Char} (h : IsFraction fraction)
    (tail : IsExponent exponent) : NoDigit (fraction ++ exponent) := by
  cases h with
  | none => exact tail.noDigit
  | some => exact fun c hc => by cases hc; rfl

theorem spanDigits_digits {whole rest : List Char} (digit : ∀ c ∈ whole, c.isDigit = true)
    (h : NoDigit rest) : spanDigits (whole ++ rest) = (whole, rest) := by
  rw [spanDigits_append whole h, spanDigits_of_all digit, List.nil_append]

/-- There is one way to take a fraction and an exponent apart. -/
theorem IsFraction.append_inj {f g e d : List Char} (hf : IsFraction f) (hg : IsFraction g)
    (he : IsExponent e) (hd : IsExponent d) (h : f ++ e = g ++ d) : f = g ∧ e = d := by
  -- no exponent starts with a point
  have point {ds cs : List Char} (hcs : IsExponent cs) (same : '.' :: ds = cs) : False := by
    cases hcs with
    | none => cases same
    | some => cases same
  cases hf with
  | none =>
    cases hg with
    | none => exact ⟨rfl, h⟩
    | some => exact (point he h.symm).elim
  | some fdigit =>
    cases hg with
    | none => exact (point hd h).elim
    | some gdigit =>
      rw [List.cons_append, List.cons_append, List.cons.injEq] at h
      have spans := congrArg spanDigits h.2
      rw [spanDigits_digits fdigit he.noDigit, spanDigits_digits gdigit hd.noDigit] at spans
      obtain ⟨digits, exponents⟩ := Prod.mk.inj spans
      exact ⟨congrArg _ digits, exponents⟩

theorem IsExponent.isSome_exponentPart? {cs : List Char} (h : IsExponent cs) :
    (exponentPart? cs).isSome = true := by
  cases h with
  | none => rfl
  | @some sign digits sign_minus nonempty digit =>
    obtain ⟨d, ds, rfl⟩ := List.exists_cons_of_ne_nil nonempty
    have front : (spanSign (sign ++ d :: ds)).2 = d :: ds := by
      rcases sign_minus with rfl | rfl
      · have hd := digit d List.mem_cons_self
        rw [List.nil_append]
        unfold spanSign
        split
        · next same => cases same; cases hd
        · next same => cases same; cases hd
        · rfl
      · rfl
    rw [exponentPart?, if_pos (.inl rfl)]
    dsimp only
    rw [front, spanDigits_of_all digit]
    rfl

/-- Digits without a point behind them are read up to the exponent. -/
theorem literal?_of_no_point {cs whole rest : List Char} (digits : spanDigits cs = (whole, rest))
    (nonempty : whole ≠ []) (noPoint : rest.head? ≠ some '.') :
    literal? cs = (exponentPart? rest).map fun e => ⟨whole, [], e⟩ := by
  have some : whole.isEmpty = false := by simpa using nonempty
  rw [literal?, digits]
  dsimp only
  split
  · next point => exact absurd rfl noPoint
  · simp [some]

/-- Digits with a point behind them are read up to the exponent behind the fraction. -/
theorem literal?_of_point {cs whole more : List Char}
    (digits : spanDigits cs = (whole, '.' :: more)) (nonempty : whole ≠ []) :
    literal? cs =
      (exponentPart? (spanDigits more).2).map fun e => ⟨whole, (spanDigits more).1, e⟩ := by
  have some : whole.isEmpty = false := by simpa using nonempty
  rw [literal?, digits]
  change (if (whole.isEmpty && (spanDigits more).1.isEmpty) = true then none else _) = _
  rw [some, Bool.false_and, if_neg (by decide)]
  rfl

/-- A literal can be read. -/
theorem IsLiteral.isSome_literal? {whole fraction exponent : List Char}
    (h : IsLiteral whole fraction exponent) :
    (literal? (whole ++ (fraction ++ exponent))).isSome = true := by
  have digits := spanDigits_digits h.digit (h.isFraction.noDigit h.isExponent)
  cases h.isFraction with
  | none =>
    have noPoint : exponent.head? ≠ .some '.' := by
      cases h.isExponent with
      | none => simp
      | some => simp
    rw [literal?_of_no_point digits h.nonempty noPoint, Option.isSome_map]
    exact h.isExponent.isSome_exponentPart?
  | some digit =>
    rw [List.cons_append] at digits ⊢
    rw [literal?_of_point digits h.nonempty, spanDigits_digits digit h.isExponent.noDigit,
      Option.isSome_map]
    exact h.isExponent.isSome_exponentPart?

/-- Digits with a minus behind them are no literal. -/
theorem literal?_minus {whole : List Char} (nonempty : whole ≠ [])
    (digit : ∀ c ∈ whole, c.isDigit = true) (rest : List Char) :
    literal? (whole ++ '-' :: rest) = none := by
  have stops : NoDigit ('-' :: rest) := fun c hc => by cases hc; rfl
  rw [literal?_of_no_point (spanDigits_digits digit stops) nonempty (by simp)]
  rfl

/-- A literal is a numeral. -/
theorem IsLiteral.isNumeral {whole fraction exponent : List Char}
    (h : IsLiteral whole fraction exponent) : IsNumeral (whole ++ (fraction ++ exponent)) := by
  obtain ⟨first, more, rfl⟩ := List.exists_cons_of_ne_nil h.nonempty
  obtain ⟨digit, digits⟩ := List.forall_mem_cons.1 h.digit
  rw [List.cons_append, ← List.append_assoc]
  refine .mk digit (fun c hc => ?_) h.isExponent
  rcases List.mem_append.1 hc with hc | hc
  · exact isNumeralChar_of_isDigit (digits c hc)
  cases h.isFraction with
  | none => cases hc
  | some fractional =>
    rcases List.mem_cons.1 hc with rfl | hc
    · rfl
    · exact isNumeralChar_of_isDigit (fractional c hc)

/-- Digits in front of a literal make a literal. -/
theorem IsLiteral.append {whole fraction exponent front : List Char}
    (h : IsLiteral whole fraction exponent) (digit : ∀ c ∈ front, c.isDigit = true) :
    IsLiteral (front ++ whole) fraction exponent where
  nonempty := by simp [h.nonempty]
  digit c hc := (List.mem_append.1 hc).elim (digit c) (h.digit c)
  isFraction := h.isFraction
  isExponent := h.isExponent

/-! ## The two notations -/

/-- Positional notation has as many digits before the point as the point says, and at least
    one. -/
theorem isLiteral_plain (l : Layout) {digits : List Char} (nonempty : digits ≠ [])
    (digit : ∀ c ∈ digits, c.isDigit = true) (point : ℤ) :
    ∃ whole fraction, l.plain digits point = whole ++ fraction ∧ IsLiteral whole fraction [] ∧
      (whole.length : ℤ) = max 1 point := by
  have zeros (n : ℕ) : ∀ c ∈ List.replicate n '0', c.isDigit = true := fun c hc => by
    rw [List.eq_of_mem_replicate hc]
    rfl
  have both {cs ds : List Char} (hc : ∀ c ∈ cs, c.isDigit = true) (hd : ∀ d ∈ ds, d.isDigit = true) :
      ∀ c ∈ cs ++ ds, c.isDigit = true := fun c h => (List.mem_append.1 h).elim (hc c) (hd c)
  rw [Layout.plain]
  split
  · -- the point before the digits
    refine ⟨['0'], _, rfl, ⟨by simp, by simp, .some (both (zeros _) digit), .none⟩, ?_⟩
    simp only [List.length_singleton, Nat.cast_one]
    omega
  · dsimp only
    split
    · next short =>
      -- the point after the digits
      refine ⟨_, _, rfl, ⟨by simp [nonempty], both digit (zeros _), ?_, .none⟩, ?_⟩
      · split
        · exact .some (by simp)
        · exact .none
      · rw [List.length_append, List.length_replicate]
        omega
    · next long =>
      -- the point inside the digits
      refine ⟨_, _, rfl, ⟨?_, fun c hc => digit c (List.mem_of_mem_take hc),
        .some fun c hc => digit c (List.mem_of_mem_drop hc), .none⟩, ?_⟩
      · simp [nonempty]
        omega
      · rw [List.length_take]
        omega

/-- Exponent notation has one digit before the point. -/
theorem isLiteral_scientific {l : Layout} (plain : l.plusSign = false) {digits : List Char}
    (nonempty : digits ≠ []) (digit : ∀ c ∈ digits, c.isDigit = true) (point : ℤ) :
    ∃ first fraction exponent, l.scientific digits point = [first] ++ (fraction ++ 'e' :: exponent) ∧
      IsLiteral [first] fraction ('e' :: exponent) := by
  obtain ⟨d, ds, rfl⟩ := List.exists_cons_of_ne_nil nonempty
  have hd : d.isDigit = true := digit d List.mem_cons_self
  have exponent (e : Int) :
      IsExponent ('e' :: ((if e < 0 then ['-'] else []) ++ digitChars e.natAbs)) := by
    refine .some ?_ (digitChars_ne_nil _) fun c hc => isDigit_of_mem_digitChars hc
    split
    · exact .inr rfl
    · exact .inl rfl
  have parts : l.scientific (d :: ds) point =
      [d] ++ ((match ds with | [] => [] | x :: xs => '.' :: x :: xs) ++
        'e' :: ((if point - 1 < 0 then ['-'] else []) ++ digitChars (point - 1).natAbs)) := by
    cases ds <;> simp [Layout.scientific, plain]
  refine ⟨d, _, _, parts, ⟨by simp, by simpa using hd, ?_, exponent _⟩⟩
  cases ds with
  | nil => exact .none
  | cons x xs => exact .some fun c hc => digit c (List.mem_cons_of_mem d hc)

/-! ## The texts of numbers -/

/-- The size of a finite float that is not zero, as it is read off the bits. -/
theorem finite_ofFloat {x : Float} {s : Float.Model.UnpackedFloat.Sign} {m : ℕ} {e : ℤ}
    {pos : 0 < m} (h : x.toModel.unpack = .finite s m e pos) :
    (Binary.ofFloat x).Finite ∧ ((Binary.ofFloat x).mant : ℚ) * 2 ^ (Binary.ofFloat x).exp = |exact x| := by
  obtain ⟨mant, exp, half⟩ := ofFloat_of_unpack h
  have placed := placed_of_unpack h
  rw [abs_exact h, mant, exp]
  refine ⟨⟨?_, ?_, fun halved => ?_, ?_⟩, rfl⟩
  · rwa [mant]
  · rw [mant]
    exact placed.bits
  · rw [mant]
    exact half halved
  · rw [exp]
    exact placed.lowest

/-- The text of a number that is not below zero, in parts.  Without an exponent it has as many
    digits before the point as the number, or one more where the text is rounded up to a power of
    ten. -/
structure IsText (x : Float) (whole fraction exponent : List Char) : Prop
    extends IsLiteral whole fraction exponent where
  text : (format x).toList = whole ++ (fraction ++ exponent)
  single : exponent ≠ [] → whole.length = 1
  atLeast : exponent = [] → max 1 (Int.log 10 (exact x) + 1) ≤ (whole.length : ℤ)
  atMost : (whole.length : ℤ) ≤ max 1 (Int.log 10 (exact x) + 2)

/-- Positional notation with about as many digits before the point as the number has. -/
theorem exists_isText_of_plain {x : Float} {digits : List Char} {point : ℤ}
    (nonempty : digits ≠ []) (digit : ∀ c ∈ digits, c.isDigit = true)
    (text : (format x).toList = programLayout.plain digits point)
    (atLeast : max 1 (Int.log 10 (exact x) + 1) ≤ max 1 point)
    (atMost : max 1 point ≤ max 1 (Int.log 10 (exact x) + 2)) :
    ∃ whole fraction exponent, IsText x whole fraction exponent := by
  obtain ⟨whole, fraction, plain, literal, length⟩ :=
    isLiteral_plain programLayout nonempty digit point
  refine ⟨whole, fraction, [], literal, ?_, fun some => absurd rfl some, fun _ => ?_, ?_⟩
  · rw [text, plain, List.append_nil]
  · rwa [length]
  · rwa [length]

/-- Exponent notation, which has one digit before the point however large the number is. -/
theorem exists_isText_of_scientific {x : Float} {digits : List Char} {point : ℤ}
    (nonempty : digits ≠ []) (digit : ∀ c ∈ digits, c.isDigit = true)
    (text : (format x).toList = programLayout.scientific digits point) :
    ∃ whole fraction exponent, IsText x whole fraction exponent := by
  obtain ⟨first, fraction, exponent, scientific, literal⟩ :=
    isLiteral_scientific (l := programLayout) rfl nonempty digit point
  refine ⟨[first], fraction, 'e' :: exponent, literal, text.trans scientific, fun _ => rfl, nofun,
    ?_⟩
  rw [List.length_singleton]
  omega

theorem exists_isText {x : Float} (finite : x.isFinite = true) (nonneg : 0 ≤ exact x) :
    ∃ whole fraction exponent, IsText x whole fraction exponent := by
  have text : (format x).toList = programLayout.magnitude x := by
    rcases format_cases finite with ⟨-, text⟩ | ⟨negative, -⟩
    · exact text
    · exact absurd nonneg (not_le.2 negative)
  have magnitude : programLayout.magnitude x =
      if x == 0 then programLayout.plain ['0'] 1
      else if programLayout.isPlain (shortest .toEven x).point then
        programLayout.plain (digitChars (shortest .toEven x).digits) (shortest .toEven x).point
      else programLayout.scientific (digitChars (shortest .toEven x).digits)
        (shortest .toEven x).point := rfl
  rw [magnitude] at text
  rcases finite_cases finite with ⟨s, u⟩ | ⟨s, m, e, pos, u⟩
  · rw [beq_zero_iff.2 ⟨s, u⟩, if_pos rfl] at text
    have log : Int.log 10 (exact x) = 0 := by
      rw [exact_of_zero u, Int.log_of_right_le_zero _ le_rfl]
    exact exists_isText_of_plain (List.cons_ne_nil '0' []) (List.all_eq_true.1 (by decide)) text
      (by omega) (by omega)
  · rw [beq_zero_of_finite u, if_neg (by decide)] at text
    -- the point of the shortest decimal is that of the number, or one place further up
    obtain ⟨stored, size⟩ := finite_ofFloat u
    have point := point_shortest stored .toEven
    rw [size, abs_of_nonneg nonneg] at point
    have digit : ∀ c ∈ digitChars (shortest .toEven x).digits, c.isDigit = true :=
      fun c hc => isDigit_of_mem_digitChars hc
    split at text
    · exact exists_isText_of_plain (digitChars_ne_nil _) digit text (by omega) (by omega)
    · exact exists_isText_of_scientific (digitChars_ne_nil _) digit text

/-- Digits and the text of a number that is not below zero are a literal. -/
theorem exists_isLiteral_append {x : Float} (finite : x.isFinite = true) (nonneg : 0 ≤ exact x)
    {front : List Char} (digit : ∀ c ∈ front, c.isDigit = true) :
    ∃ whole fraction exponent, front ++ (format x).toList = whole ++ (fraction ++ exponent) ∧
      IsLiteral whole fraction exponent := by
  obtain ⟨whole, fraction, exponent, h⟩ := exists_isText finite nonneg
  exact ⟨front ++ whole, fraction, exponent, by rw [h.text, List.append_assoc],
    h.toIsLiteral.append digit⟩

/-- Digits and the text of a number can be read as one literal exactly when the number is not below
    zero. -/
theorem isSome_literal?_iff {x : Float} (finite : x.isFinite = true) {front : List Char}
    (nonempty : front ≠ []) (digit : ∀ c ∈ front, c.isDigit = true) :
    (literal? (front ++ (format x).toList)).isSome = true ↔ 0 ≤ exact x := by
  constructor
  · intro read
    rcases format_cases finite with ⟨nonneg, -⟩ | ⟨-, text⟩
    · exact nonneg
    · rw [text, literal?_minus nonempty digit] at read
      cases read
  · intro nonneg
    obtain ⟨whole, fraction, exponent, parts, literal⟩ :=
      exists_isLiteral_append finite nonneg digit
    rw [parts]
    exact literal.isSome_literal?

/-- A text that starts with digits is that of a number that is not below zero. -/
theorem nonneg_of_append {x : Float} (finite : x.isFinite = true) {front rest : List Char}
    (nonempty : front ≠ []) (digit : ∀ c ∈ front, c.isDigit = true)
    (text : (format x).toList = front ++ rest) : 0 ≤ exact x := by
  rcases format_cases finite with ⟨nonneg, -⟩ | ⟨-, minus⟩
  · exact nonneg
  · obtain ⟨d, ds, rfl⟩ := List.exists_cons_of_ne_nil nonempty
    rw [text, List.cons_append, List.cons.injEq] at minus
    exact absurd (digit d List.mem_cons_self) (by rw [minus.1]; decide)

section Prefix

variable {x y : Float} (finite : x.isFinite = true ∧ y.isFinite = true)
  (nonneg : 0 ≤ exact x ∧ 0 ≤ exact y) {front : List Char}
  (digit : ∀ c ∈ front, c.isDigit = true)
  (text : (format x).toList = front ++ (format y).toList)

include finite nonneg digit text

/-- A text that is digits and another text has these digits in front of its own digits and what
    follows the digits in common with the other. -/
theorem exists_isText_of_append : ∃ whole fraction exponent,
    IsText x (front ++ whole) fraction exponent ∧ IsText y whole fraction exponent := by
  obtain ⟨whole, fraction, exponent, h⟩ := exists_isText finite.1 nonneg.1
  obtain ⟨more, fraction', exponent', h'⟩ := exists_isText finite.2 nonneg.2
  have one := spanDigits_digits h.digit (h.isFraction.noDigit h.isExponent)
  have two := spanDigits_digits (h'.toIsLiteral.append digit).digit
    (h'.isFraction.noDigit h'.isExponent)
  -- both are the digits at the start of one text
  rw [← h.text, text, h'.text, ← List.append_assoc, two] at one
  obtain ⟨rfl, rest⟩ := Prod.mk.inj one
  obtain ⟨rfl, rfl⟩ := h'.isFraction.append_inj h.isFraction h'.isExponent h.isExponent rest
  exact ⟨more, fraction', exponent', h, h'⟩

/-- With two digits in front of the text of a number there is the text of a larger number only. -/
theorem exact_lt_of_append (two : 2 ≤ front.length) : exact y < exact x := by
  obtain ⟨whole, fraction, exponent, h, h'⟩ := exists_isText_of_append finite nonneg digit text
  have some : 0 < whole.length := List.length_pos_iff.2 h'.nonempty
  -- an exponent would have a single digit in front of it
  have long : (front ++ whole).length ≠ 1 := by
    rw [List.length_append]
    omega
  have plain : exponent = [] := by
    by_contra scaled
    exact long (h.single scaled)
  have least := h'.atLeast plain
  have most := h.atMost
  rw [List.length_append, Nat.cast_add] at most
  by_contra below
  rw [not_lt] at below
  rcases nonneg.1.eq_or_lt with zero | pos
  · rw [← zero, Int.log_of_right_le_zero _ le_rfl] at most
    omega
  · have logs := Int.log_mono_right (b := 10) pos below
    omega

/-- With three digits in front there is the text of a number of a hundred or more. -/
theorem hundred_le_of_append (three : 3 ≤ front.length) : 100 ≤ exact x := by
  obtain ⟨whole, fraction, exponent, h, h'⟩ := exists_isText_of_append finite nonneg digit text
  have some : 0 < whole.length := List.length_pos_iff.2 h'.nonempty
  have most := h.atMost
  rw [List.length_append, Nat.cast_add] at most
  have pos : 0 < exact x := (exact_lt_of_append finite nonneg digit text (by omega)).trans_le' nonneg.2
  have log : 2 ≤ Int.log 10 (exact x) := by omega
  have power := (Int.zpow_le_iff_le_log (b := 10) (by decide) pos).2 log
  norm_num at power
  exact power

end Prefix

end BuildingControl.Number
