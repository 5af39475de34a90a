/-
  BuildingControl.Proofs.Erl.Spelling

  Texts that are put together of tokens.  Tokens whose characters are written one
  after the other are cut out again as they were, as long as a mark stands behind
  every word (`tokens_flatMap_chars`); blanks are tokens that carry no meaning
  (`significant`), so blanks around a text do not count.
-/
import BuildingControl.Proofs.Erl.Word

namespace BuildingControl.Erl

open Number

/-! ## Tokens one after the other -/

/-- The characters of a token. -/
def Token.chars : Token → List Char
  | .number digits => digits
  | .function f => '@' :: f
  | .name w => w
  | .other c => [c]

/-- Whether a mark comes first, if anything does. -/
def startsMark : List Token → Bool
  | [] => true
  | .other _ :: _ => true
  | _ => false

/-- Whether these tokens, numbers aside, are cut as they stand: a mark is behind every word. -/
def isCut : List Token → Bool
  | [] => true
  | .other c :: ts => isMark c && isCut ts
  | .name w :: ts => isWord w && startsMark ts && isCut ts
  | .function f :: ts => f.all isNameChar && startsMark ts && isCut ts
  | .number _ :: _ => false

/-- What starts with a mark does not go on with a name. -/
theorem stops_of_startsMark {ts : List Token} (first : startsMark ts = true)
    (h : isCut ts = true) :
    ∀ c, (ts.flatMap Token.chars).head? = some c → isNameChar c = false := by
  intro c hc
  cases ts with
  | nil => cases hc
  | cons t ts =>
    cases t with
    | other d =>
      have front : c = d := by simpa [Token.chars] using hc.symm
      simp only [isCut, Bool.and_eq_true] at h
      rw [front]
      exact not_isNameChar_of_isMark h.1
    | number text => cases first
    | function name => cases first
    | name text => cases first

/-- Cutting undoes writing tokens one after the other. -/
theorem tokens_flatMap_chars {ts : List Token} (h : isCut ts = true) :
    tokens (ts.flatMap Token.chars) = ts := by
  induction ts with
  | nil => rfl
  | cons t ts ih =>
    rw [List.flatMap_cons]
    cases t with
    | number text => cases h
    | other c =>
      simp only [isCut, Bool.and_eq_true] at h
      rw [Token.chars, List.singleton_append, tokens_mark h.1, ih h.2]
    | name text =>
      simp only [isCut, Bool.and_eq_true] at h
      rw [Token.chars, tokens_word h.1.1 (stops_of_startsMark h.1.2 h.2), ih h.2]
    | function name =>
      simp only [isCut, Bool.and_eq_true] at h
      rw [Token.chars, List.cons_append,
        tokens_function h.1.1 (stops_of_startsMark h.1.2 h.2), ih h.2]

/-- The tokens of an expression that was put together of tokens. -/
theorem Expression.significant_of_ofText? {text : String} {e : Expression}
    (h : Expression.ofText? text = .ok e) {ts : List Token}
    (spelled : text.toList = ts.flatMap Token.chars) (cut : isCut ts = true) :
    significant (tokens e.text.toList) = significant ts := by
  rw [Expression.text_of_ofText? h, Text.trim, String.toList_ofList, significant_trimChars,
    spelled, tokens_flatMap_chars cut]

/-- The tokens of an expression that is a number. -/
theorem Expression.significant_of_format {x : Float} (finite : x.isFinite = true) {e : Expression}
    (h : Expression.ofText? (format x) = .ok e) :
    ∃ cs, (significant (tokens e.text.toList) = [.number cs] ∧ (format x).toList = cs) ∨
      (significant (tokens e.text.toList) = [.other '-', .number cs] ∧
        (format x).toList = '-' :: cs) := by
  obtain ⟨sign, cs, written, plus_or_minus, numeral⟩ := format_of_isFinite finite
  rw [Expression.text_of_ofText? h, Text.trim, String.toList_ofList, significant_trimChars,
    written]
  refine ⟨cs, ?_⟩
  rcases plus_or_minus with rfl | rfl
  · left
    rw [List.nil_append, tokens_numeral numeral]
    exact ⟨rfl, rfl⟩
  · right
    rw [List.singleton_append, tokens_mark (by decide), tokens_numeral numeral]
    exact ⟨rfl, rfl⟩

end BuildingControl.Erl
