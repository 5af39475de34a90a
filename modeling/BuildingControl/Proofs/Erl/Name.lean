/-
  BuildingControl.Proofs.Erl.Name

  What is known of the text of a name and of an expression.  A name is a letter,
  then name characters; an expression has no blank at its ends; and neither
  contains a character that would end a field or a line.
-/
import BuildingControl.Erl.Expression
import BuildingControl.Proofs.Text.Letter
import BuildingControl.Proofs.Text.Trim

namespace BuildingControl.Erl

/-! ## Classes of characters -/

/-- Letters by code point. -/
theorem isAlpha_iff {c : Char} :
    c.isAlpha = true ↔ (65 ≤ c.toNat ∧ c.toNat ≤ 90) ∨ (97 ≤ c.toNat ∧ c.toNat ≤ 122) := by
  have upper : c.isUpper = true ↔ 65 ≤ c.toNat ∧ c.toNat ≤ 90 := by
    show decide (c.val ≥ 'A'.val ∧ c.val ≤ 'Z'.val) = true ↔ _
    rw [decide_eq_true_iff]
    exact Iff.and UInt32.le_iff_toNat_le UInt32.le_iff_toNat_le
  have lower : c.isLower = true ↔ 97 ≤ c.toNat ∧ c.toNat ≤ 122 := by
    show (decide (c.val ≥ 'a'.val) && decide (c.val ≤ 'z'.val)) = true ↔ _
    rw [Bool.and_eq_true, decide_eq_true_iff, decide_eq_true_iff]
    exact Iff.and UInt32.le_iff_toNat_le UInt32.le_iff_toNat_le
  show (c.isUpper || c.isLower) = true ↔ _
  rw [Bool.or_eq_true, upper, lower]

theorem not_isDigit_of_isAlpha {c : Char} (h : c.isAlpha = true) : c.isDigit = false := by
  by_contra digit
  rw [Bool.not_eq_false] at digit
  have low : c.toNat ≤ 57 := (Char.isDigit_iff_toNat.1 digit).2
  have high : 65 ≤ c.toNat ∨ 97 ≤ c.toNat := (isAlpha_iff.1 h).imp And.left And.left
  omega

/-- Name characters by code point. -/
theorem isNameChar_iff {c : Char} :
    isNameChar c = true ↔ (65 ≤ c.toNat ∧ c.toNat ≤ 90) ∨ (97 ≤ c.toNat ∧ c.toNat ≤ 122) ∨
      (48 ≤ c.toNat ∧ c.toNat ≤ 57) ∨ c.toNat = 95 := by
  have underscore : c = '_' ↔ c.toNat = 95 := by
    rw [Char.ext_iff, ← UInt32.toNat_inj]
    exact Iff.rfl
  have digit : c.isDigit = true ↔ 48 ≤ c.toNat ∧ c.toNat ≤ 57 := Char.isDigit_iff_toNat
  show ((c.isAlpha || c.isDigit) || c == '_') = true ↔ _
  rw [Bool.or_eq_true, Bool.or_eq_true, beq_iff_eq, isAlpha_iff, digit, underscore, or_assoc,
    or_assoc]

theorem isNameChar_of_isDigit {c : Char} (h : c.isDigit = true) : isNameChar c = true := by
  simp [isNameChar, Char.isAlphanum, h]

theorem not_isBlank_of_isNameChar {c : Char} (h : isNameChar c = true) :
    Text.isBlank c = false := by
  rw [isNameChar_iff] at h
  simp only [Text.isBlank, Text.blankRanges, List.any_cons, List.any_nil, Bool.or_false,
    Bool.or_eq_false_iff, Bool.and_eq_false_iff, decide_eq_false_iff_not]
  omega

/-- A character that one field of an input file can hold. -/
def isFieldChar (c : Char) : Bool :=
  !isLineEnd c && !isSeparator c

theorem isFieldChar_iff {c : Char} :
    isFieldChar c = true ↔ isLineEnd c = false ∧ isSeparator c = false := by
  simp [isFieldChar]

theorem isFieldChar_of_isNameChar {c : Char} (h : isNameChar c = true) : isFieldChar c = true := by
  by_contra hf
  have : c = '\n' ∨ c = '\r' ∨ c = ',' ∨ c = ';' ∨ c = '!' := by
    simp only [isFieldChar, isLineEnd, isSeparator] at hf
    grind
  rcases this with rfl | rfl | rfl | rfl | rfl <;> simp [isNameChar] at h

/-- A text fits one field exactly when its characters do. -/
theorem fieldReason?_eq_none_iff {text : String} :
    fieldReason? text = none ↔ ∀ c ∈ text.toList, isFieldChar c = true := by
  simp only [fieldReason?, fieldReasonChars?_eq_none_iff, isFieldChar_iff]

/-! ## Names -/

/-- Names are their texts. -/
theorem Name.eq_of_text {n k : Name} (h : n.text = k.text) : n = k := by
  cases n
  cases k
  cases h
  rfl

/-- A text is made a name as it is or not at all. -/
theorem Name.ofText?_eq_ok_iff {text : String} {n : Name} :
    Name.ofText? text = .ok n ↔ n.text = text := by
  unfold Name.ofText?
  split
  · next h =>
    constructor
    · intro hn
      cases hn
      rfl
    · rintro rfl
      rfl
  · next reason h =>
    constructor
    · intro hn
      cases hn
    · rintro rfl
      rw [n.valid] at h
      cases h

/-- A name is a letter, then name characters, and no reserved word. -/
theorem Name.shape (n : Name) :
    ∃ c cs, n.text.toList = c :: cs ∧ c.isAlpha = true ∧
      (∀ d ∈ c :: cs, isNameChar d = true) ∧ isReserved n.text = false := by
  have h := n.valid
  unfold nameReason? at h
  split at h
  · cases h
  · next c cs hcs =>
    split at h
    · cases h
    split at h
    · cases h
    split at h
    · cases h
    next h1 h2 h3 =>
    refine ⟨c, cs, hcs, by simpa using h1, ?_, by simpa using h3⟩
    simpa using h2

theorem Name.isNameChar (n : Name) : ∀ c ∈ n.text.toList, isNameChar c = true := by
  obtain ⟨c, cs, h, -, all, -⟩ := n.shape
  rwa [h]

theorem Name.toList_ne_nil (n : Name) : n.text.toList ≠ [] := by
  obtain ⟨c, cs, h, -⟩ := n.shape
  simp [h]

theorem Name.trimmed (n : Name) : Text.trimChars n.text.toList = n.text.toList :=
  Text.trimChars_of_no_blank fun c hc => not_isBlank_of_isNameChar (n.isNameChar c hc)

theorem Name.isFieldChar (n : Name) : ∀ c ∈ n.text.toList, isFieldChar c = true :=
  fun c hc => isFieldChar_of_isNameChar (n.isNameChar c hc)

theorem Name.not_isReserved (n : Name) : isReserved n.text = false := by
  obtain ⟨c, cs, -, -, -, h⟩ := n.shape
  exact h

/-- Whether a text is a name does not depend on the case of its letters. -/
theorem nameReason?_eq_of_asciiUpper {a b : String}
    (h : Text.asciiUpper a = Text.asciiUpper b) : nameReason? a = nameReason? b := by
  have same := Text.map_eq_of_asciiUpper (f := fun c => (c.isAlpha, Erl.isNameChar c)) (by decide) h
  have reserved : isReserved a = isReserved b := by rw [isReserved, isReserved, h]
  unfold nameReason?
  cases ha : a.toList with
  | nil =>
    rw [ha, List.map_nil, eq_comm, List.map_eq_nil_iff] at same
    rw [same]
  | cons c cs =>
    cases hb : b.toList with
    | nil => simp [ha, hb] at same
    | cons d ds =>
      rw [ha, hb, List.map_cons, List.map_cons] at same
      obtain ⟨first, rest⟩ := List.cons.inj same
      have all : (c :: cs).all Erl.isNameChar = (d :: ds).all Erl.isNameChar := by
        have classes := congrArg (List.all · Prod.snd) same
        simpa [List.all_map, Function.comp_def] using classes
      have alpha : c.isAlpha = d.isAlpha := (Prod.mk.inj first).1
      dsimp only
      rw [reserved, all, alpha]

/-! ## Expressions -/

/-- Expressions are their texts. -/
theorem Expression.eq_of_text {e f : Expression} (h : e.text = f.text) : e = f := by
  cases e
  cases f
  cases h
  rfl

theorem Expression.text_of_ofText? {text : String} {e : Expression}
    (h : Expression.ofText? text = .ok e) : e.text = Text.trim text := by
  unfold Expression.ofText? at h
  split at h
  · cases h
    rfl
  · cases h

/-- A text is an expression when it is not blank and fits one field. -/
theorem expressionReason?_eq_none_iff {text : String} :
    expressionReason? text = none ↔
      (∃ c ∈ text.toList, Text.isBlank c = false) ∧ ∀ c ∈ text.toList, isFieldChar c = true := by
  rw [expressionReason?, ← fieldReason?_eq_none_iff]
  by_cases blank : ∀ c ∈ text.toList, Text.isBlank c = true
  · rw [Text.trimChars_eq_nil_iff.2 blank]
    simp only [List.isEmpty_nil, if_true, reduceCtorEq, false_iff, not_and]
    rintro ⟨c, hc, visible⟩
    rw [blank c hc] at visible
    cases visible
  · have visible : ∃ c ∈ text.toList, Text.isBlank c = false := by simpa using blank
    have kept : (Text.trimChars text.toList).isEmpty = false := by
      rwa [List.isEmpty_eq_false_iff, ne_eq, Text.trimChars_eq_nil_iff]
    simp [kept, visible]

theorem Expression.exists_ofText?_iff {text : String} :
    (∃ e, Expression.ofText? text = .ok e) ↔ expressionReason? text = none := by
  unfold Expression.ofText?
  split
  · next valid => exact iff_of_true ⟨_, rfl⟩ valid
  · next reason invalid => simp [invalid]

theorem Expression.shape (e : Expression) :
    e.text.toList ≠ [] ∧ Text.trimChars e.text.toList = e.text.toList ∧
      ∀ c ∈ e.text.toList, Erl.isFieldChar c = true := by
  have h := e.valid
  simp only [isExpressionText, Bool.and_eq_true, Bool.not_eq_true', List.isEmpty_eq_false_iff,
    beq_iff_eq] at h
  refine ⟨h.1.1, h.1.2, ?_⟩
  rw [← fieldReason?_eq_none_iff]
  exact h.2

theorem Expression.trimmed (e : Expression) : Text.trimChars e.text.toList = e.text.toList :=
  e.shape.2.1

theorem Expression.isFieldChar (e : Expression) : ∀ c ∈ e.text.toList, Erl.isFieldChar c = true :=
  e.shape.2.2

/-- The text of an expression is read as the expression. -/
theorem Expression.ofText?_text (e : Expression) : Expression.ofText? e.text = .ok e := by
  obtain ⟨nonempty, trimmed, field⟩ := e.shape
  have fits : expressionReason? e.text = none := by
    have oneField : fieldReason? e.text = none := fieldReason?_eq_none_iff.2 field
    simp [expressionReason?, trimmed, oneField, nonempty]
  unfold Expression.ofText?
  split
  · exact congrArg Except.ok (Expression.eq_of_text (Text.trim_eq_self trimmed))
  · next failed =>
    rw [fits] at failed
    cases failed

/-- A name as an expression. -/
def Name.expression (n : Name) : Expression where
  text := n.text
  valid := by
    have field : fieldReasonChars? n.text.toList = none := fieldReason?_eq_none_iff.2 n.isFieldChar
    simp [isExpressionText, n.trimmed, field, n.toList_ne_nil]

/-- The text of a name is read as the name. -/
theorem Name.ofText?_expression (n : Name) : Expression.ofText? n.text = .ok n.expression :=
  n.expression.ofText?_text

end BuildingControl.Erl
