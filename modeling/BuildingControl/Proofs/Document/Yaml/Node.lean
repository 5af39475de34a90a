/-
  BuildingControl.Proofs.Document.Yaml.Node

  The node that a value written as YAML stands for.  It is a faithful rendering
  of the value: a text is quoted where it would be read as something else, and
  infinities and what is no number have words of their own.
-/
import BuildingControl.Document.Yaml.Writing
import BuildingControl.Proofs.Decimal.Digit
import BuildingControl.Proofs.Document.Rendering
import BuildingControl.Proofs.Number.NonFinite

namespace BuildingControl.Document.Yaml

open Decimal

/-! ## Nodes of values -/

/-- How a text is written. -/
def textStyle (cs : List Char) : Style :=
  if cs.contains '\n' then
    if canBeLiteral cs then .literal else .quoted
  else if !looksTyped cs && canBePlain cs then .plain
  else .quoted

/-- A text as a scalar. -/
def textNode (s : String) : Node :=
  .scalar none (textStyle s.toList) s.toList

/-- A scalar that is written plain. -/
def plainNode (cs : List Char) : Node :=
  .scalar none .plain cs

mutual

/-- The node of a value. -/
def nodeOf : Value → Node
  | .null => plainNode "null".toList
  | .bool true => plainNode "true".toList
  | .bool false => plainNode "false".toList
  | .int n => plainNode (intChars n)
  | .real x => plainNode (numberLayout.chars x)
  | .text s => textNode s
  | .list items => .sequence none (nodesOf items)
  | .object fields => .mapping none (fieldNodesOf fields)
  | .unreadable => plainNode "null".toList

/-- The nodes of a list. -/
def nodesOf : List Value → List Node
  | [] => []
  | v :: rest => nodeOf v :: nodesOf rest

/-- The nodes of fields and their names. -/
def fieldNodesOf : List (String × Value) → List (Node × Node)
  | [] => []
  | (name, v) :: rest => (textNode name, nodeOf v) :: fieldNodesOf rest

end

theorem nodesOf_eq_map (items : List Value) : nodesOf items = items.map nodeOf := by
  induction items with
  | nil => rfl
  | cons v rest ih => rw [nodesOf, ih, List.map_cons]

theorem fieldNodesOf_eq_map (fields : List (String × Value)) :
    fieldNodesOf fields = fields.map fun f => (textNode f.1, nodeOf f.2) := by
  induction fields with
  | nil => rfl
  | cons f rest ih => rw [fieldNodesOf, ih, List.map_cons]

/-! ## Texts -/

/-- A plain scalar is null, a truth value or a whole number, or else a number or a text. -/
theorem typed?_eq_some {cs : List Char} {c : Content} (h : typed? cs = some c) :
    c = .null ∨ (∃ b, c = .bool b) ∨ (∃ n, c = .int n) ∨ c = realOrText cs := by
  have rest {c : Content} (h : some (realOrText cs) = some c) :
      c = .null ∨ (∃ b, c = .bool b) ∨ (∃ n, c = .int n) ∨ c = realOrText cs :=
    .inr (.inr (.inr (Option.some_inj.1 h).symm))
  unfold typed? at h
  split at h
  · exact .inl (Option.some_inj.1 h).symm
  split at h
  next b _ => exact .inr (.inl ⟨b, (Option.some_inj.1 h).symm⟩)
  split at h
  next n _ =>
    split at h
    · exact .inr (.inr (.inl ⟨n, (Option.some_inj.1 h).symm⟩))
    split at h
    · cases h
    · exact rest h
  next => exact rest h

/-- A text that a plain scalar has by its type is all of the scalar. -/
theorem eq_of_typed?_eq_text {cs : List Char} {s : String} (h : typed? cs = some (.text s)) :
    s = String.ofList cs := by
  rcases typed?_eq_some h with h | ⟨b, h⟩ | ⟨n, h⟩ | h
  · cases h
  · cases h
  · cases h
  · unfold realOrText at h
    split at h
    · cases h
    · exact Content.text.inj h

/-- A number that a plain scalar is by its type is the number it is read as. -/
theorem real?_of_typed?_eq_real {cs : List Char} {x : Float} (h : typed? cs = some (.real x)) :
    real? cs = some x := by
  rcases typed?_eq_some h with h | ⟨b, h⟩ | ⟨n, h⟩ | h
  · cases h
  · cases h
  · cases h
  · unfold realOrText at h
    split at h
    next y hy =>
      cases h
      split at hy
      · cases hy
      · exact hy
    next => cases h

theorem typed?_of_not_looksTyped {cs : List Char} (h : looksTyped cs = false) :
    typed? cs = some (.text (String.ofList cs)) := by
  unfold looksTyped at h
  obtain ⟨-, h⟩ := Bool.or_eq_false_iff.1 h
  split at h
  next s hs => rw [hs, eq_of_typed?_eq_text hs]
  next => cases h

/-- Only a text that has no other type is written plain. -/
theorem typed?_of_textStyle {cs : List Char} (h : textStyle cs = .plain) :
    typed? cs = some (.text (String.ofList cs)) := by
  unfold textStyle at h
  split at h
  · split at h <;> cases h
  split at h
  next plain =>
    rw [Bool.and_eq_true, Bool.not_eq_true'] at plain
    exact typed?_of_not_looksTyped plain.1
  next => cases h

theorem content?_textNode (s : String) : content? (textNode s) = some (.text s) := by
  rw [textNode, content?, scalarContent?]
  cases hs : textStyle s.toList with
  | plain => simp [localTag?, typed?_of_textStyle hs, String.ofList_toList]
  | quoted => simp [localTag?, String.ofList_toList]
  | literal => simp [localTag?, String.ofList_toList]
  | folded => simp [localTag?, String.ofList_toList]

theorem text?_textNode (s : String) : (textNode s).text? = some s := by
  rw [textNode, Node.text?, String.ofList_toList]

theorem absent?_textNode (s : String) : (textNode s).absent? = some false := by
  rw [textNode]
  cases hs : textStyle s.toList with
  | plain =>
    have typed := typed?_of_textStyle hs
    cases nothing : s.toList.isEmpty || isNull s.toList with
    | true =>
      rw [typed?, if_pos nothing] at typed
      cases typed
    | false => rw [Node.absent?, nothing]
  | _ => rfl

/-! ## Whole numbers -/

theorem hexValue?_of_isDigit {c : Char} (h : c.isDigit = true) :
    Json.hexValue? c = some (c.toNat - '0'.toNat) := by
  have range : '0' ≤ c ∧ c ≤ '9' := by
    simpa [Char.isDigit, Char.le_def] using h
  rw [Json.hexValue?, if_pos range]

/-- Digits are read as what they are worth, after what was read before them. -/
theorem foldlM_digits {cs : List Char} (h : ∀ c ∈ cs, c.isDigit = true) (n : Nat) :
    cs.foldlM (fun n d =>
      match Json.hexValue? d with
      | some v => if v < 10 then some (10 * n + v) else none
      | none => none) n =
      some (cs.foldl (fun n c => 10 * n + (c.toNat - '0'.toNat)) n) := by
  induction cs generalizing n with
  | nil => rfl
  | cons c cs ih =>
    have digit : c.isDigit = true := h c List.mem_cons_self
    have small : c.toNat - '0'.toNat < 10 := by
      have range : 48 ≤ c.toNat ∧ c.toNat ≤ 57 := Char.isDigit_iff_toNat.1 digit
      show c.toNat - 48 < 10
      omega
    rw [List.foldlM_cons, List.foldl_cons]
    simp only [hexValue?_of_isDigit digit, if_pos small]
    exact ih (fun d hd => h d (List.mem_cons_of_mem c hd)) _

theorem digits?_digitChars (n : Nat) : digits? 10 (digitChars n) = some n := by
  obtain ⟨c, cs, hn⟩ := List.exists_cons_of_ne_nil (digitChars_ne_nil n)
  have digits : ∀ c ∈ digitChars n, c.isDigit = true := fun _ => isDigit_of_mem_digitChars
  have read := foldlM_digits digits 0
  have worth : digitsValue (digitChars n) = n := digitsValue_digitChars n
  rw [digitsValue] at worth
  rw [worth, hn] at read
  rw [hn, digits?]
  exact read

/-- The first digit of a number, which is a zero only if it is the number zero. -/
theorem exists_first_digit (n : Nat) :
    ∃ c cs, digitChars n = c :: cs ∧ c.isDigit = true ∧ (c = '0' → cs = []) := by
  obtain ⟨c, cs, hn⟩ := List.exists_cons_of_ne_nil (digitChars_ne_nil n)
  refine ⟨c, cs, hn, isDigit_of_mem_digitChars (hn ▸ List.mem_cons_self), ?_⟩
  rintro rfl
  rcases Nat.eq_zero_or_pos n with rfl | pos
  · exact (List.cons.inj hn).2.symm
  · exact absurd (congrArg List.head? hn) (head?_digitChars_ne_zero pos)

theorem hasLeadingZero_of_ne {c : Char} (minus : c ≠ '-') (plus : c ≠ '+') (zero : c ≠ '0')
    (cs : List Char) : hasLeadingZero (c :: cs) = false := by
  unfold hasLeadingZero
  simp only
  split
  next h => split at h <;> simp_all
  next => rfl

theorem magnitude?_of_ne {c : Char} (zero : c ≠ '0') (cs : List Char) :
    magnitude? (c :: cs) = digits? 10 (c :: cs) := by
  rw [magnitude?]
  all_goals simp [zero]

theorem whole?_of_ne {c : Char} (minus : c ≠ '-') (plus : c ≠ '+') (zero : c ≠ '0')
    (cs : List Char) : whole? (c :: cs) = (digits? 10 (c :: cs)).map Int.ofNat := by
  rw [whole?, hasLeadingZero_of_ne minus plus zero]
  · simp [magnitude?_of_ne zero]
  · simp [minus]
  · simp [plus]

/-- A number in digits is read as a whole number, with or without regard to its sign. -/
theorem whole?_digitChars (n : Nat) : whole? (digitChars n) = some (n : Int) := by
  obtain ⟨c, cs, hn, digit, alone⟩ := exists_first_digit n
  have read : digits? 10 (c :: cs) = some n := hn ▸ digits?_digitChars n
  have other {d : Char} (hd : d.isDigit = false) : c ≠ d := by
    rintro rfl
    rw [digit] at hd
    cases hd
  rw [hn]
  by_cases zero : c = '0'
  · cases alone zero
    subst zero
    cases read
    rfl
  · rw [whole?_of_ne (other rfl) (other rfl) zero, read]
    rfl

theorem intChars_natCast (n : Nat) : intChars n = digitChars n := by
  rw [intChars, if_neg (by omega), Int.natAbs_natCast]

theorem count?_intChars {n : Nat} (h : n < countLimit) :
    Source.count? (plainNode (intChars n)) = some n := by
  obtain ⟨c, cs, hn, digit, -⟩ := exists_first_digit n
  have unsigned : ((digitChars n).head? == some '-') = false := by
    rw [hn, List.head?_cons, beq_eq_false_iff_ne]
    intro same
    cases same
    cases digit
  show (positiveWhole? (intChars n)).bind countOfInt? = some n
  rw [intChars_natCast, positiveWhole?, unsigned, if_neg Bool.false_ne_true, whole?_digitChars,
    Option.bind_some]
  exact countOfInt?_natCast h

/-- Digits are no word. -/
theorem ne_word_of_digit {c d : Char} (digit : c.isDigit = true) (other : d.isDigit = false)
    (cs ds : List Char) : String.ofList (c :: cs) ≠ String.ofList (d :: ds) := by
  intro same
  cases (List.cons.inj (String.ofList_injective same)).1
  rw [digit] at other
  cases other

theorem bool?_of_digit {c : Char} (digit : c.isDigit = true) (cs : List Char) :
    bool? (c :: cs) = none := by
  unfold bool?
  split
  next h => exact absurd h (ne_word_of_digit digit rfl cs ['r', 'u', 'e'])
  next h => exact absurd h (ne_word_of_digit digit rfl cs ['r', 'u', 'e'])
  next h => exact absurd h (ne_word_of_digit digit rfl cs ['R', 'U', 'E'])
  next h => exact absurd h (ne_word_of_digit digit rfl cs ['a', 'l', 's', 'e'])
  next h => exact absurd h (ne_word_of_digit digit rfl cs ['a', 'l', 's', 'e'])
  next h => exact absurd h (ne_word_of_digit digit rfl cs ['A', 'L', 'S', 'E'])
  next => rfl

theorem isNull_of_digit {c : Char} (digit : c.isDigit = true) (cs : List Char) :
    isNull (c :: cs) = false := by
  have lower : String.ofList (c :: cs) ≠ "null" := ne_word_of_digit digit rfl cs ['u', 'l', 'l']
  have capital : String.ofList (c :: cs) ≠ "Null" := ne_word_of_digit digit rfl cs ['u', 'l', 'l']
  have upper : String.ofList (c :: cs) ≠ "NULL" := ne_word_of_digit digit rfl cs ['U', 'L', 'L']
  have tilde : String.ofList (c :: cs) ≠ "~" := ne_word_of_digit digit rfl cs []
  have listed : String.ofList (c :: cs) ∉ ["null", "Null", "NULL", "~"] := by
    simp only [List.mem_cons, List.not_mem_nil, or_false, not_or]
    exact ⟨lower, capital, upper, tilde⟩
  rw [isNull, List.contains_eq_mem, decide_eq_false listed]

theorem typed?_intChars {n : Int} (h : 0 ≤ n ∧ n < countLimit) :
    typed? (intChars n) = some (.int n) := by
  obtain ⟨k, rfl⟩ := Int.eq_ofNat_of_zero_le h.1
  obtain ⟨c, cs, hk, digit, -⟩ := exists_first_digit k
  have read : whole? (c :: cs) = some (k : Int) := hk ▸ whole?_digitChars k
  have fits : isWord (k : Int) = true := by
    have limit : (k : Int) < 4294967296 := h.2
    simp only [isWord, Bool.and_eq_true, decide_eq_true_eq]
    exact ⟨by omega, Int.lt_trans limit (by decide)⟩
  rw [intChars_natCast, hk, typed?, isNull_of_digit digit, bool?_of_digit digit, read]
  simp [fits]

/-! ## Numbers -/

/-- What is asked of a finite number: that its digits, written plain, are the number. -/
def ReadsBack (x : Float) : Prop :=
  x.isFinite = true → typed? (numberLayout.chars x) = some (.real x)

/-- Numbers that are not finite have words of their own. -/
theorem typed?_of_not_isFinite {x : Float} (h : x.isFinite = false) :
    typed? (numberLayout.chars x) = some (.real x) := by
  rcases Number.eq_of_not_isFinite h with rfl | rfl | rfl
  · have written : numberLayout.chars Number.infinity = ".inf".toList := by decide +kernel
    rw [written]
    rfl
  · have written : numberLayout.chars Number.negInfinity = "-.inf".toList := by decide +kernel
    rw [written]
    rfl
  · have written : numberLayout.chars Number.notANumber = ".nan".toList := by decide +kernel
    rw [written]
    rfl

theorem typed?_real {x : Float} (h : ReadsBack x) :
    typed? (numberLayout.chars x) = some (.real x) := by
  cases hx : x.isFinite with
  | true => exact h hx
  | false => exact typed?_of_not_isFinite hx

/-! ## Nodes as contents -/

theorem contents?_nodesOf {items : List Value}
    (h : ∀ v ∈ items, content? (nodeOf v) = some (v.content fun _ => true)) :
    contents? (nodesOf items) = some (Value.contents (fun _ => true) items) := by
  induction items with
  | nil => rfl
  | cons v rest ih =>
    rw [nodesOf, contents?, h v List.mem_cons_self,
      ih fun w hw => h w (List.mem_cons_of_mem v hw), Value.contents]

theorem fieldContents?_fieldNodesOf {fields : List (String × Value)}
    (h : ∀ f ∈ fields, content? (nodeOf f.2) = some (f.2.content fun _ => true)) :
    fieldContents? (fieldNodesOf fields) =
      some (Value.fieldContents (fun _ => true) fields) := by
  induction fields with
  | nil => rfl
  | cons f rest ih =>
    rw [fieldNodesOf, fieldContents?, content?_textNode, h f List.mem_cons_self,
      ih fun g hg => h g (List.mem_cons_of_mem f hg), Value.fieldContents]
    rfl

/-- A node is typed as the value it stands for. -/
theorem content?_nodeOf : (levels : Nat) → (v : Value) → v.Fits ReadsBack levels →
    content? (nodeOf v) = some (v.content fun _ => true)
  | _, .null, _ => rfl
  | _, .bool true, _ => rfl
  | _, .bool false, _ => rfl
  | levels, .int n, h => by
    have range : 0 ≤ n ∧ n < countLimit := by
      cases levels <;> exact h
    exact typed?_intChars range
  | levels, .real x, h => by
    have readsBack : ReadsBack x := by
      cases levels <;> exact h
    exact typed?_real readsBack
  | _, .text s, _ => content?_textNode s
  | levels + 1, .list items, h => by
    rw [nodeOf, content?, contents?_nodesOf fun v hv => content?_nodeOf levels v (h v hv),
      Value.content]
    rfl
  | levels + 1, .object fields, h => by
    rw [nodeOf, content?,
      fieldContents?_fieldNodesOf fun f hf => content?_nodeOf levels f.2 (h f hf), Value.content]
    rfl
  | levels, .unreadable, h => by
    have never : False := by
      cases levels <;> exact h
    exact never.elim

/-! ## Nodes as sources -/

theorem namedFields?_fieldNodesOf (fields : List (String × Value)) :
    namedFields? (fieldNodesOf fields) = some (fields.map fun f => (f.1, nodeOf f.2)) := by
  induction fields with
  | nil => rfl
  | cons f rest ih => rw [fieldNodesOf, namedFields?, text?_textNode, ih, List.map_cons]

theorem isTagKey_textNode (tag name : String) (v : Node) :
    isTagKey tag (textNode name, v) = (name == tag) := by
  rw [isTagKey, content?_textNode]

/-- Fields without a name are not found by it, and all are kept without it. -/
theorem filter_fieldNodesOf {tag : String} {fields : List (String × Value)}
    (h : tag ∉ fields.map Prod.fst) :
    (fieldNodesOf fields).filter (isTagKey tag) = [] ∧
      (fieldNodesOf fields).filter (!isTagKey tag ·) = fieldNodesOf fields := by
  have other : ∀ f ∈ fieldNodesOf fields, isTagKey tag f = false := by
    rw [fieldNodesOf_eq_map]
    intro f hf
    obtain ⟨g, hg, rfl⟩ := List.mem_map.1 hf
    rw [isTagKey_textNode, beq_eq_false_iff_ne]
    exact fun same => h (List.mem_map.2 ⟨g, hg, same⟩)
  constructor
  · exact List.filter_eq_nil_iff.2 fun f hf => by simp [other f hf]
  · exact List.filter_eq_self.2 fun f hf => by simp [other f hf]

/-- The node of a value shows all of it, numbers that are not finite included. -/
theorem faithful_nodeOf : FaithfulTags ReadsBack (fun _ => true) nodeOf where
  text := text?_textNode
  word s := by
    show (textNode s).word? = some s
    rw [textNode, Node.word?]
    simp [localTag?, String.ofList_toList]
  flag b := by cases b <;> rfl
  count n h := count?_intChars h
  real x h := real?_of_typed?_eq_real (typed?_real h)
  text_present := absent?_textNode
  object_present _ := rfl
  items vs := by
    rw [nodeOf, nodesOf_eq_map]
    rfl
  record known fields := by
    show (namedFields? (fieldNodesOf fields)).bind (knownFields? known) = _
    rw [namedFields?_fieldNodesOf, Option.bind_some]
  tagged levels tag kind fields untagged h := by
    obtain ⟨none, all⟩ := filter_fieldNodesOf untagged
    have typed : fieldContents? (fieldNodesOf fields) = some (Value.fieldContents _ fields) :=
      fieldContents?_fieldNodesOf fun f hf => by
        cases levels with
        | zero => exact h.elim
        | succ levels => exact content?_nodeOf levels f.2 (h f hf)
    simp [nodeOf, fieldNodesOf, TaggedSource.tagged?, localTag?,
      isTagKey_textNode, none, all, typed, text?_textNode, Value.content]

end BuildingControl.Document.Yaml
