/-
  BuildingControl.Proofs.Erl.Word

  The words of expressions that are put together from words, marks and numbers.
  Blanks around an expression hide none of its words, and a generated text is
  taken apart from the left, one word or mark at a time.
-/
import BuildingControl.Proofs.Erl.Tokenized
import Mathlib.Data.List.Induction

namespace BuildingControl.Erl

open Number

/-! ## Blanks at the ends -/

theorem not_isNameChar_of_isMark {c : Char} (h : isMark c = true) : isNameChar c = false := by
  simp only [isMark, startsName, Bool.and_eq_true, Bool.not_eq_true', Bool.or_eq_false_iff] at h
  simp [isNameChar, Char.isAlphanum, h]

/-- A character that ends whatever token stands in front of it. -/
def isBreak (c : Char) : Bool :=
  isMark c && c != '+' && c != '-'

theorem isMark_of_isBreak {c : Char} (h : isBreak c = true) : isMark c = true := by
  simp only [isBreak, Bool.and_eq_true] at h
  exact h.1.1

theorem isBreak_of_isBlank {c : Char} (h : Text.isBlank c = true) : isBreak c = true := by
  have notName : isNameChar c = false := by
    by_contra name
    rw [Bool.not_eq_false] at name
    rw [not_isBlank_of_isNameChar name] at h
    cases h
  have other : ∀ d ∈ ['.', '@', '+', '-'], c ≠ d := by
    rintro d hd rfl
    revert h
    revert hd
    simp only [List.mem_cons, List.not_mem_nil, or_false]
    rintro (rfl | rfl | rfl | rfl) <;> decide
  simp only [isNameChar, Char.isAlphanum, Bool.or_eq_false_iff] at notName
  simp only [List.forall_mem_cons] at other
  simp [isBreak, isMark, startsName, notName, other]

/-- No piece of a numeric literal has a break in it. -/
theorem LiteralPiece.not_isBreak {piece : List Char} (h : LiteralPiece piece) :
    ∀ d ∈ piece, isBreak d = false := by
  cases h with
  | digit digit => simp [isBreak, isMark, digit]
  | point => exact List.forall_mem_singleton.2 rfl
  | @exponent mark follower h starts =>
    have first : isBreak mark = false := by rcases h with rfl | rfl <;> decide
    have second : isBreak follower = false := by
      simp only [startsExponent, Bool.or_eq_true, beq_iff_eq] at starts
      rcases starts with (digit | rfl) | rfl
      · simp [isBreak, isMark, digit]
      · decide
      · decide
    simp [first, second]

section Break

variable {c : Char} (h : isBreak c = true) {rest : List Char}

include h

/-- What a literal does not go on with, it does not go on with before a break either. -/
theorem EndsLiteral.append_break (ends : EndsLiteral rest) (cs : List Char) :
    EndsLiteral (rest ++ c :: cs) := by
  intro piece more literal same
  rcases List.append_eq_append_iff.1 same with ⟨x, front, back⟩ | ⟨x, front, -⟩
  · -- the piece reaches up to the break or beyond it
    cases x with
    | nil => exact ends piece [] literal (by rw [front, List.append_nil, List.append_nil])
    | cons d x =>
      obtain ⟨rfl, -⟩ := List.cons.inj back
      have apart := literal.not_isBreak c (front ▸ List.mem_append_right rest List.mem_cons_self)
      rw [h] at apart
      cases apart
  · exact ends piece x literal front

theorem EndsName.append_break (ends : EndsName rest) (cs : List Char) :
    EndsName (rest ++ c :: cs) := by
  intro d hd
  cases rest with
  | nil =>
    cases hd
    exact not_isNameChar_of_isMark (isMark_of_isBreak h)
  | cons e rest => exact ends d hd

theorem startsLiteral_append_break {d : Char} (cs : List Char) :
    StartsLiteral d (rest ++ c :: cs) ↔ StartsLiteral d rest := by
  cases rest with
  | nil =>
    have digit : c.isDigit = false := by
      have mark := isMark_of_isBreak h
      simp only [isMark, Bool.and_eq_true, Bool.not_eq_true'] at mark
      exact mark.1.1.1
    simp [StartsLiteral, digit]
  | cons e rest => simp [StartsLiteral]

/-- A break parts a text into two that are cut on their own. -/
theorem Tokenized.append_break {cs : List Char} {ts us : List Token} (first : Tokenized cs ts)
    (later : Tokenized rest us) : Tokenized (cs ++ c :: rest) (ts ++ .other c :: us) := by
  induction first with
  | nil =>
    have mark := isMark_of_isBreak h
    simp only [isMark, Bool.and_eq_true, Bool.not_eq_true', bne_iff_ne, ne_eq] at mark
    refine .other ?_ mark.1.2 mark.2 later
    rintro (digit | ⟨point, -⟩)
    · rw [mark.1.1.1] at digit
      cases digit
    · exact mark.1.1.2 point
  | @number d pieces cs ts starts each ends _ ih =>
    rw [List.cons_append, List.append_assoc]
    refine .number ?_ each (ends.append_break h rest) ih
    rwa [← List.append_assoc, startsLiteral_append_break h]
  | function all ends _ ih =>
    rw [List.cons_append, List.append_assoc]
    exact .function all (ends.append_break h rest) ih
  | name starts all ends _ ih =>
    rw [List.cons_append, List.append_assoc]
    exact .name starts all (ends.append_break h rest) ih
  | other literal function name _ ih =>
    exact .other (mt (startsLiteral_append_break h rest).1 literal) function name ih

end Break

theorem words_nil : words [] = [] := rfl

theorem tokens_nil : tokens [] = [] := rfl

theorem tokens_break {c : Char} (h : isBreak c = true) (cs rest : List Char) :
    tokens (cs ++ c :: rest) = tokens cs ++ .other c :: tokens rest :=
  tokens_of_tokenized ((tokenized_iff.2 rfl).append_break h (tokenized_iff.2 rfl))

theorem words_break {c : Char} (h : isBreak c = true) (cs rest : List Char) :
    words (cs ++ c :: rest) = words cs ++ words rest := by
  rw [words, tokens_break h, List.filterMap_append]
  rfl

/-- Whether a token is a blank. -/
def Token.isBlank : Token → Bool
  | .other c => Text.isBlank c
  | _ => false

/-- The tokens that are no blanks. -/
def significant (ts : List Token) : List Token :=
  ts.filter fun t => !t.isBlank

/-- Blanks at the ends of a text do not count. -/
theorem significant_trimChars (cs : List Char) :
    significant (tokens (Text.trimChars cs)) = significant (tokens cs) := by
  have front (ds : List Char) :
      significant (tokens (ds.dropWhile Text.isBlank)) = significant (tokens ds) := by
    induction ds with
    | nil => rfl
    | cons d ds ih =>
      rw [List.dropWhile_cons]
      split
      · next blank =>
        rw [ih, tokens_mark (isMark_of_isBreak (isBreak_of_isBlank blank))]
        simp [significant, Token.isBlank, blank]
      · rfl
  have back (ds : List Char) :
      significant (tokens (ds.reverse.dropWhile Text.isBlank).reverse) =
        significant (tokens ds) := by
    induction ds using List.reverseRecOn with
    | nil => rfl
    | append_singleton ds d ih =>
      rw [List.reverse_append, List.reverse_singleton, List.singleton_append, List.dropWhile_cons]
      split
      · next blank =>
        rw [ih, tokens_break (isBreak_of_isBlank blank), tokens_nil]
        simp [significant, Token.isBlank, blank]
      · rw [List.reverse_cons, List.reverse_reverse]
  rw [Text.trimChars, back, front]

/-- No blank is a word. -/
theorem words_eq_significant (cs : List Char) :
    words cs = (significant (tokens cs)).filterMap Token.name? := by
  rw [words, significant, List.filterMap_filter]
  refine List.filterMap_congr fun t _ => ?_
  cases t with
  | other c => simp [Token.name?]
  | _ => simp [Token.isBlank]

/-- Blanks at the ends of a text hide none of its words. -/
theorem words_trimChars (cs : List Char) : words (Text.trimChars cs) = words cs := by
  rw [words_eq_significant, significant_trimChars, words_eq_significant]

/-- Blanks around an expression do not count. -/
theorem Expression.words_of_ofText? {text : String} {e : Expression}
    (h : Expression.ofText? text = .ok e) : words e.text.toList = words text.toList := by
  rw [Expression.text_of_ofText? h, Text.trim, String.toList_ofList, words_trimChars]

/-! ## Generated text -/

/-- A word stays a word with name characters behind. -/
theorem isWord_append {w more : List Char} (h : isWord w = true)
    (name : more.all isNameChar = true) : isWord (w ++ more) = true := by
  cases w with
  | nil => cases h
  | cons c cs =>
    simp only [isWord, List.cons_append, List.all_append, Bool.and_eq_true] at h ⊢
    exact ⟨h.1, h.2, name⟩

theorem toList_toString (n : Nat) : (toString n).toList = Decimal.digitChars n := by
  show (String.ofList (Nat.toDigits 10 n)).toList = _
  rw [String.toList_ofList]
  rfl

/-- A stem with a number behind. -/
theorem isWord_numbered {stem : String} (h : isWord stem.toList = true) (n : Nat) :
    isWord (stem ++ toString n).toList = true := by
  rw [String.toList_append, toList_toString]
  exact isWord_append h (List.all_eq_true.2 fun c hc =>
    isNameChar_of_isDigit (Decimal.isDigit_of_mem_digitChars hc))

theorem words_word_mark {w : String} (h : isWord w.toList = true) {c : Char}
    (mark : isMark c = true) (cs : List Char) : words (w.toList ++ c :: cs) = w :: words cs := by
  have stops : ∀ d, (c :: cs).head? = some d → isNameChar d = false := by
    intro d hd
    cases hd
    exact not_isNameChar_of_isMark mark
  rw [words_word h stops, words_mark mark, String.ofList_toList]

theorem words_word_end {w : String} (h : isWord w.toList = true) : words w.toList = [w] := by
  have stops : ∀ d, ([] : List Char).head? = some d → isNameChar d = false := nofun
  have alone := words_word h stops
  rwa [List.append_nil, String.ofList_toList, words_nil] at alone

/-- Digits with a number behind have no words, whether the two read as one number or as a
    difference. -/
theorem words_digits_format {ds : List Char} (nonempty : ds ≠ [])
    (digit : ∀ c ∈ ds, c.isDigit = true) {x : Float} (finite : x.isFinite = true) :
    words (ds ++ (format x).toList) = [] := by
  obtain ⟨d, ds, rfl⟩ := List.exists_cons_of_ne_nil nonempty
  obtain ⟨first, rest⟩ := List.forall_mem_cons.1 digit
  have plain : ∀ c ∈ ds, isNumeralChar c = true := fun c hc => isNumeralChar_of_isDigit (rest c hc)
  obtain ⟨sign, cs, written, plus_or_minus, numeral⟩ := format_of_isFinite finite
  rw [written]
  rcases plus_or_minus with rfl | rfl
  · -- one number
    cases numeral with
    | @mk c more exponent hc hmore tail =>
      have joined : d :: ds ++ ([] ++ c :: (more ++ exponent)) =
          d :: ((ds ++ c :: more) ++ exponent) := by simp
      rw [joined]
      refine words_numeral (.mk first (fun e he => ?_) tail)
      rcases List.mem_append.1 he with he | he
      · exact plain e he
      rcases List.mem_cons.1 he with rfl | he
      · exact isNumeralChar_of_isDigit hc
      · exact hmore e he
  · -- the minus ends the digits
    have span : spanNumber (ds ++ '-' :: cs) = (ds, '-' :: cs) := by
      rw [spanNumber_append plain, spanNumber.eq_def]
      simp
    have next : nextToken (d :: (ds ++ '-' :: cs)) = some (.number (d :: ds), '-' :: cs) := by
      simp [nextToken, first, span]
    have later : words ('-' :: cs) = [] := by rw [words_mark (by decide), words_numeral numeral]
    show words (d :: (ds ++ '-' :: cs)) = []
    rw [words, tokens_of_nextToken next]
    exact later

/-- The name of a function is no word. -/
theorem words_function {name cs : List Char} (h : name.all isNameChar = true) {c : Char}
    (mark : isMark c = true) : words ('@' :: (name ++ c :: cs)) = words cs := by
  have stops : ∀ d, (c :: cs).head? = some d → isNameChar d = false := by
    intro d hd
    cases hd
    exact not_isNameChar_of_isMark mark
  rw [words, tokens_function h stops]
  exact words_mark mark cs

end BuildingControl.Erl
