/-
  BuildingControl.Proofs.Document.Json.Scalar

  Strings and numbers of JSON are read as they were written, whatever follows
  them.
-/
import BuildingControl.Document.Json.Reading
import BuildingControl.Document.Json.Writing
import BuildingControl.Proofs.Decimal.Digit
import Mathlib.Data.List.Forall2

namespace BuildingControl.Document.Json

open Decimal

/-! ## Strings -/

/-- The pieces that stand for a character alone. -/
inductive Spells : Piece → Char → Prop
  | char (c : Char) : Spells (.char c) c
  | control {c : Char} (h : c.toNat < 32) : Spells (.code c.toNat) c

theorem hexNumber?_control :
    ∀ n < 32, hexNumber? ['0', '0', hexDigit (n / 16), hexDigit (n % 16)] = some n := by
  decide

/-- A character that needs no escape is a piece of its own. -/
theorem pieces_plain {c : Char} (quote : c ≠ '"') (backslash : c ≠ '\\') (h : 32 ≤ c.toNat)
    (rest : List Char) :
    pieces (c :: rest) = (pieces rest).map fun p => (.char c :: p.1, p.2) := by
  have visible : ¬ c.toNat < 32 := by omega
  rw [pieces]
  · rw [if_neg visible]
    cases pieces rest <;> rfl
  · exact quote
  · exact fun _ _ _ _ _ same _ => backslash same
  · exact fun _ _ same _ => backslash same

/-- A character after a backslash is one piece, unless it starts a number. -/
theorem pieces_escaped {e c : Char} (h : unescape? e = some c) (notNumber : e ≠ 'u')
    (rest : List Char) :
    pieces ('\\' :: e :: rest) = (pieces rest).map fun p => (.char c :: p.1, p.2) := by
  rw [pieces]
  · rw [h]
    cases pieces rest <;> rfl
  · exact fun _ _ _ _ _ same _ => notNumber same

/-- A character written as a number is one piece. -/
theorem pieces_control {n : Nat} (h : n < 32) (rest : List Char) :
    pieces ('\\' :: 'u' :: '0' :: '0' :: hexDigit (n / 16) :: hexDigit (n % 16) :: rest) =
      (pieces rest).map fun p => (.code n :: p.1, p.2) := by
  rw [pieces, hexNumber?_control n h]
  cases pieces rest <;> rfl

/-- A written character is read as one piece. -/
theorem exists_piece (c : Char) :
    ∃ piece, Spells piece c ∧ ∀ rest,
      pieces (escape c ++ rest) = (pieces rest).map fun p => (piece :: p.1, p.2) := by
  have byCode {n : Nat} (h : (c.toNat == n) = true) : c = Char.ofNat n := by
    rw [← eq_of_beq h, Char.ofNat_toNat]
  unfold escape
  split
  case isTrue h =>
    cases eq_of_beq h
    exact ⟨_, .char _, pieces_escaped rfl (by decide)⟩
  case isFalse quote =>
  split
  case isTrue h =>
    cases eq_of_beq h
    exact ⟨_, .char _, pieces_escaped rfl (by decide)⟩
  case isFalse backslash =>
  split
  case isTrue h =>
    cases eq_of_beq h
    exact ⟨_, .char _, pieces_escaped rfl (by decide)⟩
  split
  case isTrue h =>
    cases eq_of_beq h
    exact ⟨_, .char _, pieces_escaped rfl (by decide)⟩
  split
  case isTrue h =>
    cases eq_of_beq h
    exact ⟨_, .char _, pieces_escaped rfl (by decide)⟩
  split
  case isTrue h =>
    cases byCode h
    exact ⟨_, .char _, pieces_escaped rfl (by decide)⟩
  split
  case isTrue h =>
    cases byCode h
    exact ⟨_, .char _, pieces_escaped rfl (by decide)⟩
  split
  case isTrue h => exact ⟨_, .control h, pieces_control h⟩
  case isFalse h =>
    exact ⟨_, .char c, pieces_plain (by simpa using quote) (by simpa using backslash) (by omega)⟩

/-- The text after an opening quote is read as pieces up to the closing one. -/
theorem exists_pieces (cs rest : List Char) :
    ∃ ps, List.Forall₂ Spells ps cs ∧
      pieces (cs.flatMap escape ++ '"' :: rest) = some (ps, rest) := by
  induction cs with
  | nil => exact ⟨[], .nil, by simp [pieces]⟩
  | cons c cs ih =>
    obtain ⟨piece, spells, hc⟩ := exists_piece c
    obtain ⟨ps, more, hcs⟩ := ih
    refine ⟨piece :: ps, .cons spells more, ?_⟩
    rw [List.flatMap_cons, List.append_assoc, hc, hcs]
    rfl

theorem not_surrogate {n : Nat} (h : n < 32) : (isLead n || isTrail n) = false := by
  simp only [isLead, isTrail, Bool.or_eq_false_iff, Bool.and_eq_false_iff,
    decide_eq_false_iff_not]
  omega

/-- A number that is no half of a pair is a character, whatever comes after it. -/
theorem joinPieces_code {n : Nat} (alone : (isLead n || isTrail n) = false) (ps : List Piece) :
    joinPieces (.code n :: ps) = (joinPieces ps).map (Char.ofNat n :: ·) := by
  obtain ⟨noLead, noTrail⟩ := Bool.or_eq_false_iff.1 alone
  cases ps with
  | nil => simp [joinPieces, noLead, noTrail]
  | cons next more =>
    cases next with
    | char c => simp [joinPieces, noLead, noTrail]
    | code m => simp [joinPieces, noLead, noTrail]

/-- Pieces that stand for a character each join to these characters. -/
theorem joinPieces_of_spells {ps : List Piece} {cs : List Char} (h : List.Forall₂ Spells ps cs) :
    joinPieces ps = some cs := by
  induction h with
  | nil => rfl
  | cons spells more ih =>
    cases spells with
    | char c =>
      rw [joinPieces, ih]
      rfl
    | control small =>
      rw [joinPieces_code (not_surrogate small), ih, Option.map_some, Char.ofNat_toNat]

/-- A written string is read back, whatever follows it. -/
theorem string_textChars (s : String) (rest : List Char) :
    string (s.toList.flatMap escape ++ '"' :: rest) = some (some s, rest) := by
  obtain ⟨ps, spells, read⟩ := exists_pieces s.toList rest
  rw [string, read, Option.map_some, joinPieces_of_spells spells, Option.map_some,
    String.ofList_toList]

/-! ## Numbers -/

/-- What may follow a value: nothing, a comma or a new line. -/
def Ends (rest : List Char) : Prop :=
  ∀ c, rest.head? = some c → c = ',' ∨ c = '\n'

theorem Ends.noDigit {rest : List Char} (h : Ends rest) : NoDigit rest := by
  intro c hc
  rcases h c hc with rfl | rfl <;> rfl

/-- A minus in front of a number, and what follows it. -/
def splitMinus : List Char → Bool × List Char
  | '-' :: rest => (true, rest)
  | cs => (false, cs)

theorem splitMinus_of_ne {c : Char} (h : c ≠ '-') (rest : List Char) :
    splitMinus (c :: rest) = (false, c :: rest) := by
  rw [splitMinus]
  exact fun _ same => h (List.cons.inj same).1

/-- The value of a number in parts. -/
def partsValue (negative : Bool) (whole : List Char) (fraction : Option (List Char))
    (exponent : Option Int) : Value :=
  if fraction.isNone && exponent.isNone then wholeValue negative (digitsValue whole)
  else realValue (withSign negative
    (Literal.mk whole (fraction.getD []) (exponent.getD 0)).value)

theorem number_eq (cs : List Char) :
    number cs =
      if !isWhole (spanDigits (splitMinus cs).2).1 then none
      else (fraction (spanDigits (splitMinus cs).2).2).bind fun f =>
        (exponent f.2).bind fun e =>
          some (partsValue (splitMinus cs).1 (spanDigits (splitMinus cs).2).1 f.1 e.1, e.2) := by
  rcases hs : splitMinus cs with ⟨negative, body⟩
  unfold number
  unfold splitMinus at hs
  split at hs
  all_goals
    cases hs
    simp only [bind]
    split
    · rfl
    · refine congrArg _ (funext fun f => congrArg _ (funext fun e => ?_))
      unfold partsValue
      split <;> rfl

/-- A number is a minus or none, digits, a fraction or none and an exponent or none. -/
theorem number_eq_some_iff {cs tail : List Char} {v : Value} :
    number cs = some (v, tail) ↔
      ∃ f e afterFraction,
        isWhole (spanDigits (splitMinus cs).2).1 = true ∧
        fraction (spanDigits (splitMinus cs).2).2 = some (f, afterFraction) ∧
        exponent afterFraction = some (e, tail) ∧
        v = partsValue (splitMinus cs).1 (spanDigits (splitMinus cs).2).1 f e := by
  rw [number_eq]
  cases hw : isWhole (spanDigits (splitMinus cs).2).1 with
  | false => simp
  | true =>
    simp only [Bool.not_true, Bool.false_eq_true, if_false, Option.bind_eq_some_iff,
      Option.some.injEq, Prod.mk.injEq, Prod.exists, true_and]
    constructor
    · rintro ⟨f, afterFraction, hf, e, after, he, rfl, rfl⟩
      exact ⟨f, e, afterFraction, hf, he, rfl⟩
    · rintro ⟨f, e, afterFraction, hf, he, rfl⟩
      exact ⟨f, afterFraction, hf, e, tail, he, rfl, rfl⟩

/-- A number starts with a minus or a digit. -/
theorem head_of_number {cs tail : List Char} {v : Value} (h : number cs = some (v, tail)) :
    ∃ c rest, cs = c :: rest ∧ (c = '-' ∨ c.isDigit = true) := by
  obtain ⟨-, -, -, whole, -⟩ := number_eq_some_iff.1 h
  cases cs with
  | nil => cases whole
  | cons c rest =>
    refine ⟨c, rest, rfl, ?_⟩
    by_cases minus : c = '-'
    · exact .inl minus
    · refine .inr ?_
      by_contra noDigit
      rw [splitMinus_of_ne minus, spanDigits, if_neg noDigit] at whole
      cases whole

theorem splitMinus_append {cs : List Char} (nonempty : cs ≠ []) (rest : List Char) :
    splitMinus (cs ++ rest) = ((splitMinus cs).1, (splitMinus cs).2 ++ rest) := by
  obtain ⟨c, more, rfl⟩ := List.exists_cons_of_ne_nil nonempty
  by_cases minus : c = '-'
  · subst minus
    rfl
  · rw [List.cons_append, splitMinus_of_ne minus, splitMinus_of_ne minus]
    rfl

theorem fraction_append {cs : List Char} {f : Option (List Char)} {tail rest : List Char}
    (h : fraction cs = some (f, tail)) (ends : Ends rest) :
    fraction (cs ++ rest) = some (f, tail ++ rest) := by
  cases cs with
  | nil =>
    cases h
    cases rest with
    | nil => rfl
    | cons c rest => rcases ends c rfl with rfl | rfl <;> rfl
  | cons c cs =>
    by_cases point : c = '.'
    · subst point
      have span := spanDigits_append cs ends.noDigit
      rw [fraction] at h
      simp only [List.cons_append, fraction, span]
      cases hd : (spanDigits cs).1.isEmpty with
      | true => simp [hd] at h
      | false =>
        simp only [hd, Bool.false_eq_true, if_false, Option.some.injEq, Prod.mk.injEq] at h ⊢
        exact ⟨h.1, by rw [h.2]⟩
    · have plain (more : List Char) : fraction (c :: more) = some (none, c :: more) := by
        rw [fraction]
        exact fun _ same => point (List.cons.inj same).1
      rw [plain] at h
      cases h
      exact plain _

theorem spanSign_append {cs : List Char} (nonempty : cs ≠ []) (rest : List Char) :
    spanSign (cs ++ rest) = ((spanSign cs).1, (spanSign cs).2 ++ rest) := by
  obtain ⟨c, more, rfl⟩ := List.exists_cons_of_ne_nil nonempty
  by_cases minus : c = '-'
  · subst minus
    rfl
  by_cases plus : c = '+'
  · subst plus
    rfl
  have plain (more : List Char) : spanSign (c :: more) = (false, c :: more) := by
    rw [spanSign]
    · exact fun _ same => minus (List.cons.inj same).1
    · exact fun _ same => plus (List.cons.inj same).1
  rw [List.cons_append, plain, plain]
  rfl

theorem exponent_append {cs : List Char} {e : Option Int} {tail rest : List Char}
    (h : exponent cs = some (e, tail)) (ends : Ends rest) :
    exponent (cs ++ rest) = some (e, tail ++ rest) := by
  cases cs with
  | nil =>
    cases h
    cases rest with
    | nil => rfl
    | cons c rest => rcases ends c rfl with rfl | rfl <;> rfl
  | cons c cs =>
    by_cases mark : c = 'e' ∨ c = 'E'
    · rw [exponent, if_pos mark] at h
      have nonempty : cs ≠ [] := by
        rintro rfl
        cases h
      simp only [List.cons_append, exponent, if_pos mark, spanSign_append nonempty,
        spanDigits_append _ ends.noDigit]
      cases hd : (spanDigits (spanSign cs).2).1.isEmpty with
      | true => simp [hd] at h
      | false =>
        simp only [hd, Bool.false_eq_true, if_false, Option.some.injEq, Prod.mk.injEq] at h ⊢
        exact ⟨h.1, by rw [h.2]⟩
    · rw [exponent, if_neg mark] at h
      cases h
      rw [List.cons_append, exponent, if_neg mark]

/-- A number that takes up a text is read from it whatever follows. -/
theorem number_append {cs : List Char} {v : Value} {rest : List Char}
    (h : number cs = some (v, [])) (ends : Ends rest) : number (cs ++ rest) = some (v, rest) := by
  obtain ⟨c, more, rfl, -⟩ := head_of_number h
  obtain ⟨f, e, afterFraction, whole, hf, he, rfl⟩ := number_eq_some_iff.1 h
  have minus := splitMinus_append (List.cons_ne_nil c more) rest
  have digits := spanDigits_append (splitMinus (c :: more)).2 ends.noDigit
  refine number_eq_some_iff.2 ⟨f, e, afterFraction ++ rest, ?_, ?_, ?_, ?_⟩
  · rw [minus, digits]
    exact whole
  · rw [minus, digits]
    exact fraction_append hf ends
  · exact exponent_append he ends
  · rw [minus, digits]

/-- A count is read as it was written. -/
theorem number_digitChars {n : Nat} (h : n < Nat.pow 2 64) :
    number (digitChars n) = some (.int n, []) := by
  have span : spanDigits (digitChars n) = (digitChars n, []) :=
    spanDigits_of_all fun c hc => isDigit_of_mem_digitChars hc
  obtain ⟨c, more, hc⟩ := List.exists_cons_of_ne_nil (digitChars_ne_nil n)
  have noMinus : splitMinus (digitChars n) = (false, digitChars n) := by
    have digit : c.isDigit = true := isDigit_of_mem_digitChars (hc ▸ List.mem_cons_self)
    rw [hc, splitMinus_of_ne]
    rintro rfl
    cases digit
  have whole : isWhole (digitChars n) = true := by
    rcases Nat.eq_zero_or_pos n with rfl | pos
    · rfl
    · have first : c ≠ '0' := by
        have head : (digitChars n).head? ≠ some '0' := head?_digitChars_ne_zero pos
        rw [hc] at head
        exact fun same => head (congrArg some same)
      rw [hc, isWhole]
      · exact bne_iff_ne.2 first
      · exact fun same _ => first same
  refine number_eq_some_iff.2 ⟨none, none, [], ?_, ?_, rfl, ?_⟩
  · rw [noMinus, span]
    exact whole
  · rw [noMinus, span]
    rfl
  · rw [noMinus, span]
    simp [partsValue, wholeValue, digitsValue_digitChars, h]

end BuildingControl.Document.Json
