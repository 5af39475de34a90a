/-
  BuildingControl.Proofs.Measure.HaltCode

  What a halt code tells.  A code is the number of a zone, the digits of a side and the
  bound, one behind the other.  It is one literal without sign exactly when the bound is
  not below zero.  The codes of one side tell all zones apart; an upper and a lower code
  are the same text only where the digits before the point of the upper bound go on with
  `900` and the lower bound (`Clash`), which takes at least 1100 zones and an upper bound
  of a hundred or more (`Clash.number_le`, `Clash.hundred_le`).
-/
import BuildingControl.Proofs.Measure.Halt
import BuildingControl.Proofs.Number.Literal

namespace BuildingControl.Measure.Comfort

open Erl Model

/-! ## Codes -/

/-- The bound of a side, as it stands in the halt codes. -/
def bound (c : Comfort) : Side → Float
  | .upper => c.maxVote
  | .lower => c.minVote

/-- The halt code of a side of zone `n`. -/
def code (c : Comfort) (n : Nat) (side : Side) : String :=
  haltCode n side (c.bound side)

/-- The lines of the subroutine of zone `n`. -/
def haltLines (c : Comfort) (n : Nat) : List String :=
  ["IF " ++ averageName n ++ " >= " ++ Number.format c.maxVote,
   "SET tmpError = @FatalHaltEp " ++ c.code n .upper,
   "ENDIF",
   "IF " ++ averageName n ++ " <= " ++ Number.format (-c.minVote),
   "SET tmpError = @FatalHaltEp " ++ c.code n .lower,
   "ENDIF"]

/-- A text that is one number without a sign. -/
def IsUnsigned (text : String) : Prop :=
  tokens text.toList = [.number text.toList] ∧ (Decimal.literal? text.toList).isSome = true

instance (text : String) : Decidable (IsUnsigned text) :=
  inferInstanceAs (Decidable (_ ∧ _))

/-- The upper code of zone `n` is the lower code of zone `k`: the digits of `k` are those of `n`, of
    the upper side and some of the upper bound, and the upper bound goes on as the lower code
    does. -/
def Clash (c : Comfort) (n k : Nat) : Prop :=
  ∃ digits : String, toString k = toString n ++ Side.upper.code ++ digits ∧
    Number.format c.maxVote = digits ++ Side.lower.code ++ Number.format c.minVote

/-- The digits in front of the bound. -/
def codeDigits (n : Nat) (side : Side) : List Char :=
  Decimal.digitChars n ++ side.code.toList

theorem toList_code (c : Comfort) (n : Nat) (side : Side) :
    (c.code n side).toList = codeDigits n side ++ (Number.format (c.bound side)).toList := by
  have parts : c.code n side = toString n ++ side.code ++ Number.format (c.bound side) := rfl
  rw [parts, String.toList_append, String.toList_append, toList_toString]
  rfl

theorem isDigit_codeDigits (n : Nat) (side : Side) : ∀ c ∈ codeDigits n side, c.isDigit = true := by
  intro c hc
  rcases List.mem_append.1 hc with hc | hc
  · exact Decimal.isDigit_of_mem_digitChars hc
  · cases side <;> exact List.all_eq_true.1 (by decide) c hc

/-- The last digits of a zone number and those of a side. -/
theorem isDigit_append_code {n : Nat} {digits : List Char} (last : digits <:+ Decimal.digitChars n)
    (side : Side) : ∀ c ∈ digits ++ side.code.toList, c.isDigit = true := by
  intro c hc
  refine isDigit_codeDigits n side c ?_
  rcases List.mem_append.1 hc with hc | hc
  · exact List.mem_append_left _ (last.subset hc)
  · exact List.mem_append_right _ hc

theorem codeDigits_ne_nil (n : Nat) (side : Side) : codeDigits n side ≠ [] := by
  simp [codeDigits, Decimal.digitChars_ne_nil]

theorem isFinite_bound {c : Comfort} (bounds : c.checkBounds = .ok ()) (side : Side) :
    (c.bound side).isFinite = true := by
  obtain ⟨low, high⟩ := finite_of_checkBounds bounds
  cases side with
  | upper => exact high
  | lower => exact low

/-- A code is one number without sign when its bound is not below zero. -/
theorem isUnsigned_code_iff {c : Comfort} (bounds : c.checkBounds = .ok ()) (n : Nat)
    (side : Side) : IsUnsigned (c.code n side) ↔ 0 ≤ Number.exact (c.bound side) := by
  have finite := isFinite_bound bounds side
  rw [IsUnsigned, toList_code,
    Number.isSome_literal?_iff finite (codeDigits_ne_nil n side) (isDigit_codeDigits n side)]
  refine and_iff_right_of_imp fun nonneg => ?_
  obtain ⟨whole, fraction, exponent, parts, literal⟩ :=
    Number.exists_isLiteral_append finite nonneg (isDigit_codeDigits n side)
  rw [parts]
  exact tokens_numeral literal.isNumeral

/-- The codes of one side tell the zones apart. -/
theorem code_inj {c : Comfort} {side : Side} {n k : Nat} :
    c.code n side = c.code k side ↔ n = k := by
  refine ⟨fun same => ?_, fun same => same ▸ rfl⟩
  have chars := congrArg String.toList same
  rw [toList_code, toList_code] at chars
  have digits : Decimal.digitChars n = Decimal.digitChars k :=
    List.append_cancel_right (List.append_cancel_right chars)
  rw [← Decimal.digitsValue_digitChars n, digits, Decimal.digitsValue_digitChars]

/-- Digits behind a number make a number that is not smaller. -/
theorem digitsValue_le_append (front digits : List Char) :
    Decimal.digitsValue front ≤ Decimal.digitsValue (front ++ digits) := by
  induction digits using List.reverseRecOn with
  | nil => rw [List.append_nil]
  | append_singleton digits d ih =>
    have last : Decimal.digitsValue (front ++ (digits ++ [d])) =
        10 * Decimal.digitsValue (front ++ digits) + (d.toNat - '0'.toNat) := by
      rw [← List.append_assoc, Decimal.digitsValue, List.foldl_append]
      rfl
    omega

/-! ## Codes of different sides -/

/-- Where the digits of one side stand before those of the other they do not overlap. -/
theorem Side.exists_of_append {side other : Side} (apart : side ≠ other) {between f g : List Char}
    (h : side.code.toList ++ f = between ++ (other.code.toList ++ g)) :
    ∃ digits, between = side.code.toList ++ digits ∧ f = digits ++ (other.code.toList ++ g) := by
  rcases between with _ | ⟨a, _ | ⟨b, _ | ⟨d, digits⟩⟩⟩
  case cons.cons.cons =>
    refine ⟨digits, ?_⟩
    cases side <;> simpa [Side.code, and_assoc, eq_comm] using h
  -- with fewer characters between them a `1` would have to be a `9` or a `0`
  all_goals
    cases side <;> cases other <;> simp [Side.code] at h apart

section Clash

variable {c : Comfort} {n k : Nat}

/-- A clash, character by character. -/
theorem clash_iff : c.Clash n k ↔ ∃ digits,
    Decimal.digitChars k = Decimal.digitChars n ++ (Side.upper.code.toList ++ digits) ∧
      (Number.format c.maxVote).toList =
        digits ++ (Side.lower.code.toList ++ (Number.format c.minVote).toList) := by
  constructor
  · rintro ⟨digits, zone, bound⟩
    refine ⟨digits.toList, ?_, ?_⟩
    · rw [← toList_toString, zone, String.toList_append, String.toList_append, toList_toString,
        List.append_assoc]
    · rw [bound, String.toList_append, String.toList_append, List.append_assoc]
  · rintro ⟨digits, zone, bound⟩
    refine ⟨String.ofList digits, String.toList_inj.1 ?_, String.toList_inj.1 ?_⟩
    · rw [String.toList_append, String.toList_append, toList_toString, toList_toString,
        String.toList_ofList, zone, List.append_assoc]
    · rw [String.toList_append, String.toList_append, String.toList_ofList, bound,
        List.append_assoc]

/-- A clash takes zones that are 1099 numbers apart. -/
theorem Clash.number_le (clash : c.Clash n k) : n + 1099 ≤ k := by
  obtain ⟨digits, zone, -⟩ := clash_iff.1 clash
  have least := digitsValue_le_append (Decimal.digitChars n ++ Side.upper.code.toList) digits
  have front : Decimal.digitsValue (Decimal.digitChars n ++ Side.upper.code.toList) =
      10 * (10 * (10 * n + 1)) := by
    have value := Decimal.digitsValue_digitChars n
    rw [Decimal.digitsValue] at value
    rw [Decimal.digitsValue, List.foldl_append, value]
    rfl
  rw [List.append_assoc, ← zone, Decimal.digitsValue_digitChars, front] at least
  -- no number starts with the digit zero, so `n` is not zero
  have positive : n ≠ 0 := by
    rintro rfl
    refine Decimal.head?_digitChars_ne_zero (n := k) (by omega) ?_
    rw [zone]
    rfl
  omega

variable (bounds : c.checkBounds = .ok ())

include bounds

theorem exact_le_of_checkBounds : Number.exact c.minVote ≤ Number.exact c.maxVote := by
  have checked {what : String} {x y : Float} (hx : requireFinite what x = .ok y) : y = x := by
    rw [requireFinite, mapError_eq_ok_iff, Number.requireFinite] at hx
    split at hx
    · exact (Except.ok.inj hx).symm
    · cases hx
  obtain ⟨low, high⟩ := finite_of_checkBounds bounds
  obtain ⟨x, hx, rest⟩ := bind_eq_ok_iff.1 bounds
  obtain ⟨y, hy, ordered⟩ := bind_eq_ok_iff.1 rest
  rw [checked hx, checked hy] at ordered
  have notBelow : ¬ c.maxVote < c.minVote := fun below => by
    rw [if_pos below] at ordered
    cases ordered
  refine Number.exact_le_of_le low high ?_
  by_contra notLe
  exact notBelow (Number.lt_of_not_le (Number.isNaN_of_isFinite high) (Number.isNaN_of_isFinite low)
    notLe)

/-- An upper code is a lower code where the two clash, and only there. -/
theorem code_upper_eq_lower_iff : c.code n .upper = c.code k .lower ↔ c.Clash n k := by
  obtain ⟨low, high⟩ := finite_of_checkBounds bounds
  rw [clash_iff, ← String.toList_inj, toList_code, toList_code, codeDigits, codeDigits,
    List.append_assoc, List.append_assoc]
  constructor
  · intro same
    rcases List.append_eq_append_iff.1 same with ⟨between, zone, rest⟩ | ⟨between, zone, rest⟩
    · obtain ⟨digits, rfl, bound⟩ := Side.exists_of_append (by decide) rest
      exact ⟨digits, zone, bound⟩
    · -- the lower bound would have more digits than the upper one
      exfalso
      obtain ⟨digits, rfl, bound⟩ := Side.exists_of_append (by decide) rest
      rw [← List.append_assoc] at zone bound
      have digit := isDigit_append_code ⟨_, zone.symm⟩ .upper
      have le := exact_le_of_checkBounds bounds
      have nonneg := Number.nonneg_of_append low (by simp [Side.code]) digit bound
      have more := Number.exact_lt_of_append ⟨low, high⟩ ⟨nonneg, nonneg.trans le⟩ digit bound
        (by simp [Side.code])
      exact absurd le (not_le.2 more)
  · rintro ⟨digits, zone, bound⟩
    rw [zone, List.append_assoc, List.append_assoc]
    congr 2

/-- A clash takes an upper bound of three digits or more before the point. -/
theorem Clash.hundred_le (clash : c.Clash n k) : 100 ≤ Number.exact c.maxVote := by
  obtain ⟨low, high⟩ := finite_of_checkBounds bounds
  have same := (code_upper_eq_lower_iff bounds).2 clash
  obtain ⟨digits, zone, bound⟩ := clash_iff.1 clash
  rw [← List.append_assoc] at zone bound
  have digit := isDigit_append_code ⟨_, zone.symm⟩ .lower
  have nonneg : 0 ≤ Number.exact c.maxVote :=
    Number.nonneg_of_append high (by simp [Side.code]) digit bound
  -- the lower code is the upper one, and so a literal without sign too
  have unsigned := (isUnsigned_code_iff bounds n .upper).2 nonneg
  rw [same] at unsigned
  have nonneg' : 0 ≤ Number.exact c.minVote := (isUnsigned_code_iff bounds k .lower).1 unsigned
  exact Number.hundred_le_of_append ⟨high, low⟩ ⟨nonneg, nonneg'⟩ digit bound
    (by simp [Side.code])

end Clash

/-- The upper code of zone 1 and the lower code of zone 1100 are both `11009001.3`. -/
example : Clash { default with minVote := 1.3, maxVote := 9001.3 } 1 1100 :=
  ⟨"", by decide, by decide +kernel⟩

/-! ## Subroutines -/

/-- The subroutine of a zone has its halting lines. -/
theorem lines_haltBody {c : Comfort} (bounds : c.checkBounds = .ok ()) {n : Nat} {code : Code}
    (built : (c.haltBody n).build = .ok code) : code.lines = c.haltLines n := by
  obtain ⟨low, high⟩ := finite_of_checkBounds bounds
  obtain ⟨average, error, b1, b2, upper, lower, hn, hk, hb1, hb2, hu, hl, lines⟩ :=
    statements_haltBody built
  -- the calls are stored as they are, for they have no blanks at their ends
  have upperText := (Expression.text_of_ofText? hu).trans (trim_haltCall high)
  have lowerText := (Expression.text_of_ofText? hl).trans (trim_haltCall low)
  have test (symbol number : String) : "IF " ++ (averageName n ++ " " ++ symbol ++ " " ++ number) =
      "IF " ++ averageName n ++ (" " ++ symbol ++ " ") ++ number := by
    simp only [String.append_assoc]
  have set (text : String) : "SET " ++ "tmpError" ++ " = " ++ ("@FatalHaltEp " ++ text) =
      "SET tmpError = @FatalHaltEp " ++ text := by
    rw [← String.append_assoc]
    rfl
  rw [Code.lines, lines]
  simp only [List.map_cons, List.map_nil, Statement.render, Condition.render, hn, hk, hb1, hb2,
    upperText, lowerText, test]
  exact congrArg₂ (fun up down => [_, up, _, _, down, _]) (set _) (set _)

/-- One of the objects of a zone is a subroutine, and it has the halting lines of the zone. -/
theorem exists_subroutine_of_zoneScript {c : Comfort} (bounds : c.checkBounds = .ok ())
    {timesteps : Nat} {zone : String} {n : Nat} {ds : List Declaration}
    (all : AllOk (c.zoneScript timesteps zone n) ds) :
    ∃ d, ds.filter (fun d => d.kind = .subroutine) = [d] ∧
      ∃ p : Program, .subroutine p = d ∧ p.name.text = haltName n ∧
        p.body.lines = c.haltLines n := by
  obtain ⟨_, _, h7, output, rfl⟩ := allOk_append_iff.1 all
  obtain ⟨_, _, h6, manager, rfl⟩ := allOk_append_iff.1 h7
  obtain ⟨_, _, h5, program, rfl⟩ := allOk_append_iff.1 h6
  obtain ⟨_, _, h4, subroutine, rfl⟩ := allOk_append_iff.1 h5
  obtain ⟨_, _, h3, global, rfl⟩ := allOk_append_iff.1 h4
  obtain ⟨_, _, h2, trend, rfl⟩ := allOk_append_iff.1 h3
  obtain ⟨_, _, sensor, request, rfl⟩ := allOk_append_iff.1 h2
  obtain ⟨vote, -, rfl⟩ := Script.allOk_sensor_iff.1 sensor
  obtain ⟨requested, hr, rfl⟩ := Script.allOk_one_iff.1 request
  obtain rfl := Except.ok.inj hr
  obtain ⟨log, source, -, -, rfl⟩ := Script.allOk_trend_iff.1 trend
  obtain ⟨average, -, rfl⟩ := Script.allOk_global_iff.1 global
  obtain ⟨halt, body, name, built, rfl⟩ := Script.allOk_subroutine_iff.1 subroutine
  obtain ⟨update, code, -, -, rfl⟩ := Script.allOk_program_iff.1 program
  obtain ⟨run, -, rfl⟩ := Script.allOk_manager_iff.1 manager
  obtain ⟨reported, -, rfl⟩ := Script.allOk_output_iff.1 output
  exact ⟨_, rfl, ⟨halt, body⟩, rfl, name, lines_haltBody bounds built⟩

/-- The subroutines of a built measure, one for each zone. -/
theorem subroutines_of_build {c : Comfort} {a next : Numbering} {m : Model}
    (built : (Measure.comfortHalt c).build a = .ok (m, next)) :
    List.Forall₂ (fun u p => p.name.text = haltName u.2 ∧ p.body.lines = c.haltLines u.2)
      (c.zones.zipIdx a.next) m.subroutines := by
  obtain ⟨ran, -⟩ := build_eq_ok_iff.1 built
  obtain ⟨-, bounds, timesteps, shape⟩ := outline ran
  obtain ⟨ds, all, declared⟩ := declarations_of_build built
  change AllOk (c.script a) ds at all
  rw [shape] at all
  obtain ⟨-, -, -, rfl⟩ := declareAll_eq_ok_iff.1 declared
  have listed : (ds.foldl push empty).subroutines.map Declaration.subroutine =
      ds.filter (fun d => d.kind = .subroutine) :=
    foldl_push_objects empty ds (k := .subroutine) (by decide)
  have each := all.forall₂_filter fun u part allOk =>
    exists_subroutine_of_zoneScript bounds allOk
  rw [← listed, List.forall₂_map_right_iff] at each
  refine each.imp fun u p h => ?_
  obtain ⟨_, hp, name, lines⟩ := h
  obtain rfl := Declaration.subroutine.inj hp
  exact ⟨name, lines⟩

/-- The bounds of a measure that builds are in order. -/
theorem checkBounds_of_build {c : Comfort} {a next : Numbering} {m : Model}
    (built : (Measure.comfortHalt c).build a = .ok (m, next)) : c.checkBounds = .ok () :=
  (outline (build_eq_ok_iff.1 built).1).2.1

/-- What the halt codes of a built measure tell.  Every zone has a subroutine whose lines end the
    run with its two codes.  A code is one number without sign exactly when its bound is not below
    zero.  The codes of one side tell the zones apart, and an upper code is a lower code exactly
    where the two clash, which takes at least 1100 zones and an upper bound of at least 100. -/
theorem haltCodes_of_build {c : Comfort} {a next : Numbering} {m : Model}
    (built : (Measure.comfortHalt c).build a = .ok (m, next)) :
    List.Forall₂ (fun u p => p.name.text = haltName u.2 ∧ p.body.lines = c.haltLines u.2)
        (c.zones.zipIdx a.next) m.subroutines ∧
      (∀ n side, IsUnsigned (c.code n side) ↔ 0 ≤ Number.exact (c.bound side)) ∧
      (∀ n k side, c.code n side = c.code k side ↔ n = k) ∧
      (∀ n k, c.code n .upper = c.code k .lower ↔ c.Clash n k) ∧
      ∀ n k, c.Clash n k → n + 1099 ≤ k ∧ 100 ≤ Number.exact c.maxVote := by
  have bounds := checkBounds_of_build built
  exact ⟨subroutines_of_build built, isUnsigned_code_iff bounds, fun _ _ _ => code_inj,
    fun _ _ => code_upper_eq_lower_iff bounds, fun _ _ clash => ⟨clash.number_le, clash.hundred_le bounds⟩⟩

/-- A lower magnitude of minus one and an upper bound of two. -/
def signed : Comfort :=
  { default with
    zones := ["Core"]
    minVote := -1.0
    maxVote := 2.0 }

/-- The check lets these bounds pass, and the lower code is one number less another. -/
theorem haltCodes_signed : ∃ m next p,
    (Measure.comfortHalt signed).build .first = .ok (m, next) ∧ m.subroutines = [p] ∧
      p.body.lines =
        ["IF PMV1runningAvg >= 2.0", "SET tmpError = @FatalHaltEp 11002.0", "ENDIF",
         "IF PMV1runningAvg <= 1.0", "SET tmpError = @FatalHaltEp 1900-1.0", "ENDIF"] ∧
      IsUnsigned "11002.0" ∧ ¬ IsUnsigned "1900-1.0" := by
  have builds : ((Measure.comfortHalt signed).build .first).isOk = true := by decide +kernel
  obtain ⟨⟨m, next⟩, built⟩ := exists_of_isOk builds
  have zone : signed.zones.zipIdx Numbering.first.next = [("Core", 1)] := by decide
  obtain ⟨listed, unsigned, -⟩ := haltCodes_of_build built
  rw [zone] at listed
  obtain ⟨p, rest, related, last, only⟩ := List.forall₂_cons_left_iff.1 listed
  rw [List.forall₂_nil_left_iff.1 last] at only
  have lines : p.body.lines = signed.haltLines 1 := related.2
  refine ⟨m, next, p, built, only, lines.trans (by decide +kernel), ?_, ?_⟩
  · have code : signed.code 1 .upper = "11002.0" := by decide +kernel
    have positive : 0 ≤ Number.exact (signed.bound .upper) := by decide +kernel
    exact code ▸ (unsigned 1 .upper).2 positive
  · have code : signed.code 1 .lower = "1900-1.0" := by decide +kernel
    have negative : ¬ 0 ≤ Number.exact (signed.bound .lower) := by decide +kernel
    exact code ▸ fun h => negative ((unsigned 1 .lower).1 h)

end BuildingControl.Measure.Comfort
