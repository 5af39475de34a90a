/-
  BuildingControl.Proofs.Erl.Tokenized

  What the tokens of a text are, said without cutting it: each token is as long as
  its kind allows, and the kinds are told apart by how a token starts.  Every text
  is cut in exactly one such way, and that is how `tokens` cuts it
  (`tokenized_iff`).
-/
import BuildingControl.Proofs.Erl.Token

namespace BuildingControl.Erl

open Number

/-! ## Cutting as a relation -/

/-- What a numeric literal goes on with behind its first character: a digit, a point, or an `e`
    with the digit or sign right behind it. -/
inductive LiteralPiece : List Char → Prop
  | digit {c : Char} (h : c.isDigit = true) : LiteralPiece [c]
  | point : LiteralPiece ['.']
  | exponent {mark follower : Char} (h : mark = 'e' ∨ mark = 'E')
      (starts : startsExponent follower = true) : LiteralPiece [mark, follower]

/-- Whether a numeric literal starts with a character, given what follows it: with a digit, or
    with a point before a digit. -/
def StartsLiteral (c : Char) (following : List Char) : Prop :=
  c.isDigit = true ∨ c = '.' ∧ ∃ d, following.head? = some d ∧ d.isDigit = true

/-- A literal does not go on with this text. -/
def EndsLiteral (rest : List Char) : Prop :=
  ∀ piece more, LiteralPiece piece → rest ≠ piece ++ more

/-- A name does not go on with this text. -/
def EndsName (rest : List Char) : Prop :=
  ∀ c, rest.head? = some c → isNameChar c = false

/-- A text cut into tokens from left to right, each of them the longest of its kind. -/
inductive Tokenized : List Char → List Token → Prop
  | nil : Tokenized [] []
  | number {c : Char} {pieces : List (List Char)} {rest : List Char} {ts : List Token}
      (starts : StartsLiteral c (pieces.flatten ++ rest))
      (each : ∀ piece ∈ pieces, LiteralPiece piece) (ends : EndsLiteral rest)
      (later : Tokenized rest ts) :
      Tokenized (c :: (pieces.flatten ++ rest)) (.number (c :: pieces.flatten) :: ts)
  | function {name rest : List Char} {ts : List Token} (all : ∀ c ∈ name, isNameChar c = true)
      (ends : EndsName rest) (later : Tokenized rest ts) :
      Tokenized ('@' :: (name ++ rest)) (.function name :: ts)
  | name {c : Char} {more rest : List Char} {ts : List Token} (starts : startsName c = true)
      (all : ∀ d ∈ more, isNameChar d = true) (ends : EndsName rest) (later : Tokenized rest ts) :
      Tokenized (c :: (more ++ rest)) (.name (c :: more) :: ts)
  | other {c : Char} {rest : List Char} {ts : List Token} (literal : ¬ StartsLiteral c rest)
      (function : c ≠ '@') (name : startsName c = false) (later : Tokenized rest ts) :
      Tokenized (c :: rest) (.other c :: ts)

theorem startsLiteral_iff {c : Char} {cs : List Char} :
    StartsLiteral c cs ↔ (c.isDigit || (c == '.' && cs.head?.any Char.isDigit)) = true := by
  simp [StartsLiteral, Option.any_eq_true]

/-- A character that starts a name starts nothing else. -/
theorem not_startsLiteral_of_startsName {c : Char} (h : startsName c = true) (cs : List Char) :
    ¬ StartsLiteral c cs := by
  rintro (digit | ⟨rfl, -⟩)
  · simp only [startsName, Bool.or_eq_true, beq_iff_eq] at h
    rcases h with alpha | rfl
    · rw [not_isDigit_of_isAlpha alpha] at digit
      cases digit
    · cases digit
  · cases h

/-! ## Literals -/

theorem spanNumber_of_endsLiteral {rest : List Char} (ends : EndsLiteral rest) :
    spanNumber rest = ([], rest) := by
  fun_cases spanNumber rest with
  | case1 => rfl
  | case2 c cs plain =>
    -- the text starts with a piece after all
    rcases Bool.or_eq_true_iff.1 plain with digit | point
    · exact absurd rfl (ends [c] cs (.digit digit))
    · obtain rfl := beq_iff_eq.1 point
      exact absurd rfl (ends ['.'] cs .point)
  | case3 c plain mark => rfl
  | case4 c plain mark d ds starts =>
    exact absurd rfl (ends [c, d] ds (.exponent (by simpa using mark) starts))
  | case5 c plain mark d ds starts => rfl
  | case6 c cs plain mark => rfl

theorem spanNumber_piece {piece : List Char} (h : LiteralPiece piece) (cs : List Char) :
    spanNumber (piece ++ cs) = (piece ++ (spanNumber cs).1, (spanNumber cs).2) := by
  cases h with
  | digit digit => exact spanNumber_append (by simp [isNumeralChar, digit]) cs
  | point => exact spanNumber_append (by simp [isNumeralChar]) cs
  | @exponent mark follower h starts =>
    have plain : (mark.isDigit || mark == '.') = false := by
      rcases h with rfl | rfl <;> decide
    have exponent : (mark == 'e' || mark == 'E') = true := by simpa using h
    rw [List.cons_append, List.cons_append, spanNumber.eq_def]
    simp [plain, exponent, starts]

/-- A literal is taken whole. -/
theorem spanNumber_pieces {pieces : List (List Char)} {rest : List Char}
    (each : ∀ piece ∈ pieces, LiteralPiece piece) (ends : EndsLiteral rest) :
    spanNumber (pieces.flatten ++ rest) = (pieces.flatten, rest) := by
  induction pieces with
  | nil => exact spanNumber_of_endsLiteral ends
  | cons piece pieces ih =>
    obtain ⟨first, others⟩ := List.forall_mem_cons.1 each
    rw [List.flatten_cons, List.append_assoc, spanNumber_piece first, ih others]

/-- A text goes on with pieces of a literal up to where none follows. -/
theorem exists_pieces (cs : List Char) :
    ∃ (pieces : List (List Char)) (rest : List Char),
      (∀ piece ∈ pieces, LiteralPiece piece) ∧ EndsLiteral rest ∧ cs = pieces.flatten ++ rest := by
  by_cases ends : EndsLiteral cs
  · exact ⟨[], cs, List.forall_mem_nil _, ends, rfl⟩
  · simp only [EndsLiteral, not_forall, not_not] at ends
    obtain ⟨piece, more, h, rfl⟩ := ends
    have shorter : more.length < (piece ++ more).length := by
      cases h <;> simp only [List.cons_append, List.nil_append, List.length_cons] <;> omega
    obtain ⟨pieces, rest, each, ends, rfl⟩ := exists_pieces more
    exact ⟨piece :: pieces, rest, List.forall_mem_cons.2 ⟨h, each⟩, ends, by simp⟩
termination_by cs.length

/-! ## Names -/

/-- The name characters at the front of a text are a name and what is left does not go on with
    it. -/
theorem endsName_dropWhile (cs : List Char) : EndsName (cs.dropWhile isNameChar) := by
  intro c hc
  have kept := List.head?_dropWhile_not isNameChar cs
  rw [hc] at kept
  exact kept

/-! ## Every text is cut in one way -/

/-- Whoever cuts a text cuts it as `tokens` does. -/
theorem tokens_of_tokenized {cs : List Char} {ts : List Token} (h : Tokenized cs ts) :
    tokens cs = ts := by
  induction h with
  | nil => rfl
  | @number c pieces rest ts starts each ends _ ih =>
    have next : nextToken (c :: (pieces.flatten ++ rest)) =
        some (.number (c :: pieces.flatten), rest) := by
      rw [nextToken, if_pos (startsLiteral_iff.1 starts), spanNumber_pieces each ends]
    rw [tokens_of_nextToken next, ih]
  | function all ends _ ih =>
    rw [tokens_function (List.all_eq_true.2 all) ends, ih]
  | @name c more rest ts starts all ends _ ih =>
    have literal := not_startsLiteral_of_startsName starts (more ++ rest)
    have function : (c == '@') = false := by
      rw [beq_eq_false_iff_ne]
      rintro rfl
      cases starts
    rw [startsLiteral_iff] at literal
    have next : nextToken (c :: (more ++ rest)) = some (.name (c :: more), rest) := by
      rw [nextToken, if_neg literal, function, Text.takeWhile_append_of_stops all ends,
        Text.dropWhile_append_of_stops all ends]
      simp [starts]
    rw [tokens_of_nextToken next, ih]
  | @other c rest ts literal function name _ ih =>
    rw [startsLiteral_iff] at literal
    have next : nextToken (c :: rest) = some (.other c, rest) := by
      rw [nextToken, if_neg literal]
      simp [function, name]
    rw [tokens_of_nextToken next, ih]

/-- Every text can be cut. -/
theorem exists_tokenized (cs : List Char) : ∃ ts, Tokenized cs ts := by
  induction hn : cs.length using Nat.strong_induction_on generalizing cs with
  | _ n ih =>
    cases cs with
    | nil => exact ⟨[], .nil⟩
    | cons c cs =>
      have names : cs.takeWhile isNameChar ++ cs.dropWhile isNameChar = cs :=
        List.takeWhile_append_dropWhile
      have shorter : (cs.dropWhile isNameChar).length ≤ cs.length :=
        (List.dropWhile_sublist isNameChar).length_le
      have all : ∀ d ∈ cs.takeWhile isNameChar, isNameChar d = true :=
        fun d hd => List.mem_takeWhile_imp hd
      rw [List.length_cons] at hn
      by_cases literal : StartsLiteral c cs
      · obtain ⟨pieces, rest, each, ends, rfl⟩ := exists_pieces cs
        rw [List.length_append] at hn
        obtain ⟨ts, later⟩ := ih rest.length (by omega) rest rfl
        exact ⟨_, .number literal each ends later⟩
      · obtain ⟨ts, later⟩ := ih _ (by omega) (cs.dropWhile isNameChar) rfl
        by_cases function : c = '@'
        · subst function
          have cut := Tokenized.function all (endsName_dropWhile cs) later
          rw [names] at cut
          exact ⟨_, cut⟩
        · cases starts : startsName c with
          | true =>
            have cut := Tokenized.name starts all (endsName_dropWhile cs) later
            rw [names] at cut
            exact ⟨_, cut⟩
          | false =>
            obtain ⟨us, rest⟩ := ih cs.length (by omega) cs rfl
            exact ⟨_, .other literal function starts rest⟩

/-- A text is cut in one way, from left to right. -/
theorem tokenized_iff {cs : List Char} {ts : List Token} : Tokenized cs ts ↔ ts = tokens cs := by
  constructor
  · intro h
    exact (tokens_of_tokenized h).symm
  · rintro rfl
    obtain ⟨ts, h⟩ := exists_tokenized cs
    rwa [tokens_of_tokenized h]

end BuildingControl.Erl
