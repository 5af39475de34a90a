/-
  BuildingControl.Proofs.Erl.Token

  The tokens of an expression: numeric literals, functions, names and single other
  characters, cut from left to right.  Every token takes at least one character,
  so the fuel of `tokens` never runs out and the tokens of a text are the first
  one and those of what follows it.  From there the words of a comparison can be
  read off: a comparison of a name with a number has the one word that the name
  is, whatever the number looks like.
-/
import BuildingControl.Proofs.Erl.Name
import BuildingControl.Proofs.Number.Written

namespace BuildingControl.Erl

open Number

/-! ## Tokens -/

/-- A piece of an expression. -/
inductive Token
  | number (text : List Char)
  | function (name : List Char)
  | name (text : List Char)
  | other (c : Char)
  deriving DecidableEq

/-- The characters a name can start with, as far as cutting goes. -/
def startsName (c : Char) : Bool :=
  c.isAlpha || c == '_'

/-- What may follow the `e` of an exponent: a digit or a sign. -/
def startsExponent (c : Char) : Bool :=
  c.isDigit || c == '-' || c == '+'

/-- The rest of a numeric literal and what follows it.  An `e` belongs to the literal when a
    digit or a sign follows, which it takes along. -/
def spanNumber : List Char → List Char × List Char
  | [] => ([], [])
  | c :: cs =>
    if c.isDigit || c == '.' then
      let (more, rest) := spanNumber cs
      (c :: more, rest)
    else if c == 'e' || c == 'E' then
      match cs with
      | [] => ([], [c])
      | d :: ds =>
        if startsExponent d then
          let (more, rest) := spanNumber ds
          (c :: d :: more, rest)
        else ([], c :: d :: ds)
    else ([], c :: cs)

/-- The token at the front and what follows it: a numeric literal starts at a digit or at a
    point before a digit, a function at `@`, a name at a letter or an underscore. -/
def nextToken : List Char → Option (Token × List Char)
  | [] => none
  | c :: cs =>
    if c.isDigit || (c == '.' && (cs.head?.any Char.isDigit)) then
      let (more, rest) := spanNumber cs
      some (.number (c :: more), rest)
    else if c == '@' then some (.function (cs.takeWhile isNameChar), cs.dropWhile isNameChar)
    else if startsName c then
      some (.name (c :: cs.takeWhile isNameChar), cs.dropWhile isNameChar)
    else some (.other c, cs)

/-- The tokens of a text, at most `fuel` of them. -/
def tokensUpTo : Nat → List Char → List Token
  | 0, _ => []
  | fuel + 1, cs =>
    match nextToken cs with
    | none => []
    | some (t, rest) => t :: tokensUpTo fuel rest

/-- The tokens of a text; each takes at least one character. -/
def tokens (cs : List Char) : List Token :=
  tokensUpTo cs.length cs

/-- The text of a name token. -/
def Token.name? : Token → Option String
  | .name text => some (String.ofList text)
  | _ => none

/-! ## Tokens one by one -/

theorem length_spanNumber_le (cs : List Char) : (spanNumber cs).2.length ≤ cs.length := by
  fun_induction spanNumber cs with
  | case1 => exact le_rfl
  | case2 c cs digit more rest hspan ih =>
    simp only [hspan] at ih
    simp only [List.length_cons]
    omega
  | case3 => exact le_rfl
  | case4 c digit mark d ds starts more rest hspan ih =>
    simp only [hspan] at ih
    simp only [List.length_cons]
    omega
  | case5 => exact le_rfl
  | case6 => exact le_rfl

/-- A token takes at least one character. -/
theorem length_lt_of_nextToken {cs rest : List Char} {t : Token}
    (h : nextToken cs = some (t, rest)) : rest.length < cs.length := by
  cases cs with
  | nil => cases h
  | cons c cs =>
    have dropped : (cs.dropWhile isNameChar).length ≤ cs.length :=
      (List.dropWhile_sublist isNameChar).length_le
    have spanned := length_spanNumber_le cs
    simp only [nextToken] at h
    rw [List.length_cons]
    split at h
    · cases h
      omega
    split at h
    · cases h
      omega
    split at h
    · cases h
      omega
    · cases h
      omega

/-- Fuel beyond the length of the text changes nothing. -/
theorem tokensUpTo_eq_tokensUpTo {n m : Nat} {cs : List Char} (hn : cs.length ≤ n)
    (hm : cs.length ≤ m) : tokensUpTo n cs = tokensUpTo m cs := by
  induction n generalizing m cs with
  | zero =>
    rw [List.length_eq_zero_iff.1 (Nat.le_zero.1 hn)]
    cases m <;> rfl
  | succ n ih =>
    cases m with
    | zero =>
      rw [List.length_eq_zero_iff.1 (Nat.le_zero.1 hm)]
      rfl
    | succ m =>
      simp only [tokensUpTo]
      cases h : nextToken cs with
      | none => rfl
      | some next =>
        obtain ⟨t, rest⟩ := next
        have shorter := length_lt_of_nextToken h
        have same : tokensUpTo n rest = tokensUpTo m rest := ih (by omega) (by omega)
        exact congrArg (t :: ·) same

/-- The tokens of a text are the first one and those of what follows it. -/
theorem tokens_of_nextToken {cs rest : List Char} {t : Token}
    (h : nextToken cs = some (t, rest)) : tokens cs = t :: tokens rest := by
  have shorter := length_lt_of_nextToken h
  obtain ⟨n, hn⟩ : ∃ n, cs.length = n + 1 := ⟨cs.length - 1, by omega⟩
  rw [tokens, hn, tokensUpTo, h]
  dsimp only
  rw [tokens, tokensUpTo_eq_tokensUpTo (m := rest.length) (by omega) le_rfl]

/-! ## Words -/

/-- The words of a text: its name tokens, in order. -/
def words (cs : List Char) : List String :=
  (tokens cs).filterMap Token.name?

/-- Characters that are a token of their own wherever they stand. -/
def isMark (c : Char) : Bool :=
  !c.isDigit && c != '.' && c != '@' && !startsName c

theorem tokens_mark {c : Char} (h : isMark c = true) (cs : List Char) :
    tokens (c :: cs) = .other c :: tokens cs := by
  simp only [isMark, Bool.and_eq_true, Bool.not_eq_true', bne_iff_ne, ne_eq] at h
  exact tokens_of_nextToken (by simp [nextToken, h])

theorem words_mark {c : Char} (h : isMark c = true) (cs : List Char) :
    words (c :: cs) = words cs := by
  rw [words, tokens_mark h]
  rfl

theorem words_marks {marks : List Char} (h : ∀ c ∈ marks, isMark c = true) (cs : List Char) :
    words (marks ++ cs) = words cs := by
  induction marks with
  | nil => rfl
  | cons c marks ih =>
    obtain ⟨first, rest⟩ := List.forall_mem_cons.1 h
    rw [List.cons_append, words_mark first, ih rest]

/-- Whether characters are a word: a letter, then name characters. -/
def isWord : List Char → Bool
  | [] => false
  | c :: cs => c.isAlpha && cs.all isNameChar

theorem Name.isWord (n : Name) : isWord n.text.toList = true := by
  obtain ⟨c, cs, shape, alpha, all, -⟩ := n.shape
  rw [shape, Erl.isWord, alpha, Bool.true_and, List.all_eq_true]
  exact fun d hd => all d (List.mem_cons_of_mem c hd)

/-- A word in front of a text, as long as what follows cannot belong to it. -/
theorem tokens_word {w cs : List Char} (h : isWord w = true)
    (stops : ∀ c, cs.head? = some c → isNameChar c = false) :
    tokens (w ++ cs) = .name w :: tokens cs := by
  cases w with
  | nil => cases h
  | cons c ds =>
    simp only [isWord, Bool.and_eq_true, List.all_eq_true] at h
    obtain ⟨alpha, tail⟩ := h
    -- a letter starts neither a number nor a function
    have no_other : c.isDigit = false ∧ c ≠ '.' ∧ c ≠ '@' := by
      refine ⟨not_isDigit_of_isAlpha alpha, ?_, ?_⟩
      · rintro rfl
        cases alpha
      · rintro rfl
        cases alpha
    exact tokens_of_nextToken (by
      simp [nextToken, no_other, startsName, alpha, Text.takeWhile_append_of_stops tail stops,
        Text.dropWhile_append_of_stops tail stops])

/-- The name of a function in front of a text, as long as what follows cannot belong to it. -/
theorem tokens_function {name cs : List Char} (h : name.all isNameChar = true)
    (stops : ∀ c, cs.head? = some c → isNameChar c = false) :
    tokens ('@' :: (name ++ cs)) = .function name :: tokens cs := by
  rw [List.all_eq_true] at h
  exact tokens_of_nextToken (by
    simp [nextToken, Text.takeWhile_append_of_stops h stops,
      Text.dropWhile_append_of_stops h stops])

theorem words_word {w cs : List Char} (h : isWord w = true)
    (stops : ∀ c, cs.head? = some c → isNameChar c = false) :
    words (w ++ cs) = String.ofList w :: words cs := by
  rw [words, tokens_word h stops]
  rfl

/-- A name in front is a word, as long as what follows cannot belong to it. -/
theorem words_name (n : Name) {cs : List Char} (stops : ∀ c, cs.head? = some c →
    isNameChar c = false) : words (n.text.toList ++ cs) = n.text :: words cs := by
  rw [words_word n.isWord stops, String.ofList_toList]

/-! ## Numbers -/

theorem spanNumber_append {more : List Char} (h : ∀ c ∈ more, isNumeralChar c = true)
    (cs : List Char) :
    spanNumber (more ++ cs) = (more ++ (spanNumber cs).1, (spanNumber cs).2) := by
  induction more with
  | nil => rfl
  | cons c more ih =>
    have plain : (c.isDigit || c == '.') = true := h c List.mem_cons_self
    rw [List.cons_append, spanNumber.eq_def]
    simp only [plain, if_true, ih fun d hd => h d (List.mem_cons_of_mem c hd), List.cons_append]

/-- A numeric literal takes its exponent along. -/
theorem spanNumber_exponent {cs : List Char} (h : IsExponent cs) : spanNumber cs = (cs, []) := by
  have whole {digits : List Char} (digit : ∀ c ∈ digits, c.isDigit = true) :
      spanNumber digits = (digits, []) := by
    have span := spanNumber_append (fun c hc => isNumeralChar_of_isDigit (digit c hc)) []
    simpa [spanNumber] using span
  cases h with
  | none => rfl
  | @some sign digits sign_minus nonempty digit =>
    -- the mark takes the next character along, a minus or the first digit
    obtain ⟨d, ds, hd, starts, rest⟩ : ∃ d ds, sign ++ digits = d :: ds ∧
        startsExponent d = true ∧ ∀ c ∈ ds, c.isDigit = true := by
      rcases sign_minus with rfl | rfl
      · obtain ⟨d, ds, rfl⟩ := List.exists_cons_of_ne_nil nonempty
        exact ⟨d, ds, rfl, by simp [startsExponent, digit d List.mem_cons_self],
          fun c hc => digit c (List.mem_cons_of_mem d hc)⟩
      · exact ⟨'-', digits, rfl, rfl, digit⟩
    rw [hd, spanNumber.eq_def]
    simp [starts, whole rest]

/-- A number without sign is one numeric literal. -/
theorem tokens_numeral {cs : List Char} (h : IsNumeral cs) : tokens cs = [.number cs] := by
  cases h with
  | @mk first more exponent digit numeral tail =>
    have next : nextToken (first :: (more ++ exponent)) =
        some (.number (first :: (more ++ exponent)), []) := by
      simp [nextToken, digit, spanNumber_append numeral, spanNumber_exponent tail]
    exact tokens_of_nextToken next

theorem words_numeral {cs : List Char} (h : IsNumeral cs) : words cs = [] := by
  rw [words, tokens_numeral h]
  rfl

/-- A finite number has no words. -/
theorem words_format {x : Float} (h : x.isFinite = true) : words (format x).toList = [] := by
  obtain ⟨sign, cs, written, plus_or_minus, numeral⟩ := format_of_isFinite h
  have marks : ∀ c ∈ sign, isMark c = true := by
    rcases plus_or_minus with rfl | rfl <;> exact List.all_eq_true.1 (by decide)
  rw [written, words_marks marks, words_numeral numeral]

end BuildingControl.Erl
