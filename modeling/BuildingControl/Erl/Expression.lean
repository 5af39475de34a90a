/-
  BuildingControl.Erl.Expression

  Expressions: the text to the right of `SET x =` and inside conditions.  An
  expression is not parsed beyond the names it refers to, which are found by
  scanning the bytes of its text.
-/
import BuildingControl.Erl.Name
import BuildingControl.Erl.Scan

namespace BuildingControl.Erl

/-! ## Text that fits one field -/

/-- The characters that would end a field, an object or the readable part of a line. -/
def isSeparator (c : Char) : Bool :=
  c == ',' || c == ';' || c == '!'

/-- The characters that end a line. -/
def isLineEnd (c : Char) : Bool :=
  c == '\n' || c == '\r'

/-- Why characters cannot be one field of an input file, if they cannot. -/
def fieldReasonChars? (cs : List Char) : Option FieldReason :=
  if cs.any isLineEnd then some .severalLines
  else if cs.any isSeparator then some .separator
  else none

/-- Why a text cannot be one field of an input file, if it cannot. -/
def fieldReason? (text : String) : Option FieldReason :=
  fieldReasonChars? text.toList

theorem fieldReasonChars?_eq_none_iff {cs : List Char} :
    fieldReasonChars? cs = none ↔ ∀ c ∈ cs, isLineEnd c = false ∧ isSeparator c = false := by
  unfold fieldReasonChars?
  constructor
  · intro h c hc
    split at h
    · cases h
    · next hl =>
      split at h
      · cases h
      · next hs =>
        simp only [List.any_eq_true, not_exists, not_and, Bool.not_eq_true] at hl hs
        exact ⟨hl c hc, hs c hc⟩
  · intro h
    have hl : cs.any isLineEnd = false := List.any_eq_false.2 fun c hc => by simp [(h c hc).1]
    have hs : cs.any isSeparator = false := List.any_eq_false.2 fun c hc => by simp [(h c hc).2]
    simp [hl, hs]

/-- A part of a field is a field. -/
theorem fieldReasonChars?_of_subset {cs ds : List Char} (hs : ∀ c ∈ ds, c ∈ cs)
    (h : fieldReasonChars? cs = none) : fieldReasonChars? ds = none :=
  fieldReasonChars?_eq_none_iff.2 fun c hc => fieldReasonChars?_eq_none_iff.1 h c (hs c hc)

/-! ## Expressions -/

/-- Whether characters are the stored text of an expression: not empty, without blanks at the
    ends, and one field. -/
def isExpressionText (cs : List Char) : Bool :=
  !cs.isEmpty && Text.trimChars cs == cs && fieldReasonChars? cs == none

/-- An expression. -/
structure Expression where
  text : String
  valid : isExpressionText text.toList = true
  deriving DecidableEq

/-- Why a text is no expression, if it is none. -/
def expressionReason? (text : String) : Option ExpressionReason :=
  if (Text.trimChars text.toList).isEmpty then some .empty
  else (fieldReason? text).map .field

theorem isExpressionText_trim {text : String} (h : expressionReason? text = none) :
    isExpressionText (Text.trim text).toList = true := by
  unfold expressionReason? at h
  split at h
  · cases h
  · next he =>
    have hf : fieldReasonChars? text.toList = none := by
      simpa [fieldReason?] using h
    have := fieldReasonChars?_of_subset (fun c => Text.mem_of_mem_trimChars) hf
    simp [isExpressionText, this, he]

/-- The expression with this text, blanks at the ends dropped. -/
def Expression.ofText? (text : String) : Except Fault Expression :=
  match h : expressionReason? text with
  | none => .ok ⟨Text.trim text, isExpressionText_trim h⟩
  | some reason => .error (.invalidExpression text reason)

/-- The expression that is a single number. -/
def Expression.ofNumber? (value : Float) : Except Fault Expression :=
  match Number.formatFinite "expression literal" value with
  | .ok text => Expression.ofText? text
  | .error fault => .error (.nonFinite fault)

/-! ## The names an expression refers to -/

/-- Variables and constants that every program can read. -/
def builtinNames : List String :=
  ["Year", "Month", "DayOfMonth", "DayOfWeek", "DayOfYear", "Hour", "Minute", "Holiday",
   "DaylightSavings", "CurrentTime", "SunIsUp", "IsRaining", "SystemTimeStep", "ZoneTimeStep",
   "CurrentEnvironment", "ActualDateAndTime", "ActualTime", "WarmupFlag", "CalendarYear",
   "TRUE", "FALSE", "ON", "OFF", "PI"]

/-- Whether a word is built in, in any spelling. -/
def isBuiltin (word : String) : Bool :=
  builtinNames.any fun b => Text.sameLetters b word

/-- The elements of the second list that the first does not hold yet, put behind it one by
    one. -/
def pushUnique [DecidableEq α] (into more : List α) : List α :=
  more.foldl (fun acc x => if x ∈ acc then acc else acc ++ [x]) into

/-- The names among words, reserved and built-in words left out, in order of first
    appearance. -/
def namesAmong (words : List String) : Except Fault (List Name) :=
  words.foldlM (fun acc word =>
    if isReserved word || isBuiltin word then .ok acc
    else (Name.ofText? word).map fun n => pushUnique acc [n]) []

/-- The names an expression refers to, in order of first appearance. -/
def Expression.names (e : Expression) : Except Fault (List Name) :=
  namesAmong (scanWords e.text)

end BuildingControl.Erl
