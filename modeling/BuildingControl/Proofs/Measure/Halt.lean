/-
  BuildingControl.Proofs.Measure.Halt

  When a run ends on discomfort.  The subroutine of a zone reaches an assignment that
  ends the run exactly when the average vote is at the upper bound or above it, or at
  minus the lower magnitude or below it.  So there is a vote at which the run goes on
  exactly when minus the magnitude is below the upper bound (`call_halt`).  The check of
  the bounds compares the magnitude itself with the upper bound: it lets bounds pass
  between which there is no vote at all (`call_halt_inverted`).
-/
import BuildingControl.Proofs.Erl.Arithmetic
import BuildingControl.Proofs.Measure.Closed
import BuildingControl.Proofs.Number.Negation

namespace BuildingControl

open Erl

/-! ## Assignments that are noted -/

namespace Erl

/-- Whether an expression calls a function; the case of letters does not matter. -/
def Expression.calls (x : Expression) (function : String) : Bool :=
  (tokens x.text.toList).any fun
    | .function name => Text.sameLetters (String.ofList name) function
    | _ => false

/-- The machine that notes beside the state whether a value of some kind was assigned. -/
def Machine.noting {S : Type} (m : Machine S) (noted : Expression → Bool) : Machine (S × Bool) where
  assign target value s := (m.assign target value s.1, s.2 || noted value)
  holds c s := m.holds c s.1

/-- Noting changes nothing else. -/
theorem Machine.run_noting {S : Type} (m : Machine S) (noted : Expression → Bool)
    {call : Name → S → Option S} {called : Name → S × Bool → Option (S × Bool)}
    (same : ∀ n s, (called n s).map Prod.fst = call n s.1) (branches : List Branch)
    (ss : List Statement) (s : S × Bool) :
    ((m.noting noted).run called branches ss s).map Prod.fst = m.run call branches ss s.1 := by
  induction ss generalizing branches s with
  | nil => rfl
  | cons line rest ih =>
    cases line with
    | assign target value =>
      rw [run, run, ih]
      cases active branches <;> rfl
    | ifThen c =>
      rw [run, run, ih]
      rfl
    | elseIf c =>
      cases branches with
      | nil => rfl
      | cons branch outer =>
        rw [run, run, ih]
        rfl
    | otherwise =>
      cases branches with
      | nil => rfl
      | cons branch outer => rw [run, run, ih]
    | endIf =>
      cases branches with
      | nil => rfl
      | cons branch outer => rw [run, run, ih]
    | run subroutine =>
      rw [run, run]
      split
      · rw [← same subroutine s]
        cases called subroutine s with
        | none => rfl
        | some t => exact ih branches t
      · exact ih branches s
    | leave =>
      rw [run, run]
      split
      · rfl
      · exact ih branches s

/-- A branch of a single action that is noted. -/
theorem Machine.run_guarded_noting {S : Type} (m : Machine S) (noted : Expression → Bool)
    (call : Name → S × Bool → Option (S × Bool)) {branches : List Branch}
    (h : active branches = true) (c : Condition) {a : Action} (notes : noted a.value = true)
    (rest : List Statement) (s : S) (flag : Bool) :
    (m.noting noted).run call branches (.ifThen c :: a.statement :: .endIf :: rest) (s, flag) =
      (m.noting noted).run call branches rest
        (if m.holds c s then m.perform a s else s, flag || m.holds c s) := by
  have holds : (m.noting noted).holds c (s, flag) = m.holds c s := rfl
  have performed : (m.noting noted).perform a (s, flag) = (m.perform a s, flag || noted a.value) :=
    rfl
  rw [run_guarded _ call h, holds, performed, notes]
  cases m.holds c s <;> simp

theorem Machine.execute_noting {S : Type} (m : Machine S) (noted : Expression → Bool)
    (subroutine? : Name → Option Code) (depth : Nat) (body : Code) (s : S × Bool) :
    ((m.noting noted).execute subroutine? depth body s).map Prod.fst =
      m.execute subroutine? depth body s.1 := by
  induction depth generalizing body s with
  | zero => rfl
  | succ depth ih =>
    refine m.run_noting noted (fun n s => ?_) [] body.statements s
    cases subroutine? n with
    | none => rfl
    | some b => exact ih b s

end Erl

theorem Model.call_noting {S : Type} (m : Model) (machine : Machine S)
    (noted : Expression → Bool) (depth : Nat) (n : Name) (s : S × Bool) :
    (m.call (machine.noting noted) depth n s).map Prod.fst = m.call machine depth n s.1 := by
  rw [call, call]
  cases m.subroutine? n with
  | none => rfl
  | some b => exact machine.execute_noting noted m.subroutine? depth b s

namespace Measure.Comfort

open Model

/-! ## The subroutine of a zone -/

/-- The function that ends a run. -/
def ending : String := "FatalHaltEp"

/-- The key of the running average of zone `n`. -/
def averageKey (n : Nat) : String := Text.asciiUpper (averageName n)

/-- The text of a halt call, character by character. -/
theorem toList_haltCall (n : Nat) (side : Side) (bound : Float) :
    (s!"@FatalHaltEp {haltCode n side bound}").toList =
      '@' :: (ending.toList ++ ' ' :: ((toString n ++ side.code).toList ++
        (Number.format bound).toList)) := by
  have code : haltCode n side bound = toString n ++ side.code ++ Number.format bound := rfl
  rw [code]
  show ("@FatalHaltEp " ++ (toString n ++ side.code ++ Number.format bound)).toList = _
  rw [String.toList_append, String.toList_append]
  rfl

/-- The text of a halt call ends in a number, so no blank is taken off. -/
theorem trim_haltCall {n : Nat} {side : Side} {bound : Float} (finite : bound.isFinite = true) :
    Text.trim s!"@FatalHaltEp {haltCode n side bound}" = s!"@FatalHaltEp {haltCode n side bound}" := by
  refine Text.trim_eq_self (Text.trimChars_eq_self (fun d hd => ?_) fun d hd => ?_)
  · rw [toList_haltCall] at hd
    cases hd
    decide
  · have front : (s!"@FatalHaltEp {haltCode n side bound}").toList =
        ('@' :: (ending.toList ++ ' ' :: (toString n ++ side.code).toList)) ++
          (Number.format bound).toList := by
      rw [toList_haltCall, List.cons_append, List.append_assoc, List.cons_append]
    rw [front, List.getLast?_append_of_ne_nil _ (Number.format_ne_nil finite)] at hd
    exact Number.not_isBlank_of_isNumberChar
      (Number.isNumberChar_of_mem_format finite d (List.mem_of_mem_getLast? hd))

/-- The value of a halt code ends the run. -/
theorem calls_haltCode {n : Nat} {side : Side} {bound : Float} (finite : bound.isFinite = true)
    {x : Expression}
    (h : Expression.ofText? s!"@FatalHaltEp {haltCode n side bound}" = .ok x) :
    x.calls ending = true := by
  have stops : ∀ d, (' ' :: ((toString n ++ side.code).toList ++
      (Number.format bound).toList)).head? = some d → isNameChar d = false := by
    intro d hd
    cases hd
    decide
  rw [Expression.calls, Expression.text_of_ofText? h, trim_haltCall finite, toList_haltCall,
    tokens_function (by decide) stops, List.any_cons, Bool.or_eq_true]
  exact .inl (by decide)

/-- The lines of the subroutine of a zone: one branch for each bound. -/
theorem statements_haltBody {c : Comfort} {n : Nat} {code : Code}
    (built : (c.haltBody n).build = .ok code) :
    ∃ (average error : Name) (high low : Boundary) (upper lower : Expression),
      average.text = averageName n ∧ error.text = "tmpError" ∧ high.value = c.maxVote ∧
      low.value = -c.minVote ∧
      Expression.ofText? s!"@FatalHaltEp {haltCode n .upper c.maxVote}" = .ok upper ∧
      Expression.ofText? s!"@FatalHaltEp {haltCode n .lower c.minVote}" = .ok lower ∧
      code.statements = [.ifThen (.compare average .ge high), .assign error upper, .endIf,
        .ifThen (.compare average .le low), .assign error lower, .endIf] := by
  have lines := Draft.statements_of_build built
  obtain ⟨_, _, h5, last, lines⟩ := allOk_append_iff.1 lines
  obtain ⟨_, _, h4, low, rfl⟩ := allOk_append_iff.1 h5
  obtain ⟨_, _, h3, below, rfl⟩ := allOk_append_iff.1 h4
  obtain ⟨_, _, h2, ends, rfl⟩ := allOk_append_iff.1 h3
  obtain ⟨_, _, above, high, rfl⟩ := allOk_append_iff.1 h2
  obtain ⟨n1, b1, hn1, hb1, rfl⟩ := Draft.allOk_ifCompare above
  obtain ⟨k1, x1, hk1, hx1, rfl⟩ := Draft.allOk_set_iff.1 high
  obtain ⟨n2, b2, hn2, hb2, rfl⟩ := Draft.allOk_ifCompare below
  obtain ⟨k2, x2, hk2, hx2, rfl⟩ := Draft.allOk_set_iff.1 low
  obtain rfl := Draft.allOk_push_iff.1 ends
  obtain rfl := Draft.allOk_push_iff.1 last
  obtain rfl : n2 = n1 := Name.eq_of_text (hn2.trans hn1.symm)
  obtain rfl : k2 = k1 := Name.eq_of_text (hk2.trans hk1.symm)
  exact ⟨n2, k2, b1, b2, x1, x2, hn1, hk1, hb1, hb2, hx1, hx2, lines.symm⟩

/-- The local name is not the running average. -/
theorem averageKey_ne (n : Nat) : averageKey n ≠ Text.asciiUpper "tmpError" := by
  have parts : averageName n = "PMV" ++ (toString n ++ "runningAvg") := String.append_assoc
  have distinct : Script.Distinct locals ("PMV" ++ (toString n ++ "runningAvg")) :=
    Script.distinct_of_stem (by decide) _
  rw [averageKey, parts]
  exact distinct _ List.mem_cons_self

section Halt

variable {K : Type} [Field K] [LinearOrder K]

/-- A vote at a bound or outside of the bounds. -/
def Crossed (c : Comfort) (vote : K) : Prop :=
  (Number.exact c.maxVote : K) ≤ vote ∨ vote ≤ -(Number.exact c.minVote : K)

instance (c : Comfort) (vote : K) : Decidable (Crossed c vote) :=
  inferInstanceAs (Decidable (_ ∨ _))

/-- The lines of a subroutine note the end of the run when the average has crossed a bound. -/
theorem run_haltBody {c : Comfort} (finite : c.minVote.isFinite = true ∧ c.maxVote.isFinite = true)
    {n : Nat} {code : Code} (built : (c.haltBody n).build = .ok code)
    (calls : String → List K → K) (test : Expression → Store K → Bool)
    (call : Name → Store K × Bool → Option (Store K × Bool)) (σ : Store K) :
    ∃ τ, ((Arithmetic.exact calls test).evaluation.machine.noting (·.calls ending)).run call []
      code.statements (σ, false) = some (τ, decide (Crossed c (σ (averageKey n)))) := by
  obtain ⟨average, error, b1, b2, x1, x2, hn, hk, hb1, hb2, hx1, hx2, lines⟩ :=
    statements_haltBody built
  have notesHigh : x1.calls ending = true := calls_haltCode finite.2 hx1
  have notesLow : x2.calls ending = true := calls_haltCode finite.1 hx2
  let machine := (Arithmetic.exact calls test).evaluation.machine
  -- the first branch does not assign to what the second one looks at
  let ρ := if machine.holds (.compare average .ge b1) σ then machine.perform ⟨error, x1⟩ σ else σ
  have kept : ρ (averageKey n) = σ (averageKey n) := by
    have other : averageKey n ≠ error.key := by
      rw [Name.key, hk]
      exact averageKey_ne n
    by_cases crossed : machine.holds (.compare average .ge b1) σ = true
    · have assigned : ρ = Function.update σ error.key ((Arithmetic.exact calls test).value x1 σ) :=
        if_pos crossed
      rw [assigned, Function.update_of_ne other]
    · have same : ρ = σ := if_neg crossed
      rw [same]
  have isHigh : machine.holds (.compare average .ge b1) σ =
      decide ((Number.exact c.maxVote : K) ≤ σ (averageKey n)) := by
    rw [averageKey, ← hn, ← hb1]
    rfl
  have isLow : machine.holds (.compare average .le b2) ρ =
      decide (σ (averageKey n) ≤ -(Number.exact c.minVote : K)) := by
    have bound : ((Number.exact b2.value : ℚ) : K) = -(Number.exact c.minVote : K) := by
      rw [hb2, Number.exact_neg, Rat.cast_neg]
    rw [← kept, ← bound, averageKey, ← hn]
    rfl
  have first := machine.run_guarded_noting (·.calls ending) call active_nil
    (.compare average .ge b1) (a := ⟨error, x1⟩) notesHigh
    [.ifThen (.compare average .le b2), .assign error x2, .endIf] σ false
  have second := machine.run_guarded_noting (·.calls ending) call active_nil
    (.compare average .le b2) (a := ⟨error, x2⟩) notesLow [] ρ
    (false || machine.holds (.compare average .ge b1) σ)
  have run := first.trans second
  rw [isLow, isHigh, Bool.false_or, ← Bool.decide_or] at run
  rw [lines]
  exact ⟨_, run⟩

/-- There is a vote between the bounds when minus the magnitude is below the upper bound. -/
theorem exists_not_crossed_iff [IsStrictOrderedRing K] {c : Comfort} :
    (∃ vote : K, ¬ Crossed c vote) ↔
      -(Number.exact c.minVote : K) < (Number.exact c.maxVote : K) := by
  constructor
  · rintro ⟨vote, between⟩
    rw [Crossed, not_or, not_le, not_le] at between
    exact between.2.trans between.1
  · intro apart
    obtain ⟨vote, above, below⟩ := exists_between apart
    refine ⟨vote, ?_⟩
    rw [Crossed, not_or, not_le, not_le]
    exact ⟨below, above⟩

end Halt

/-! ## The measure -/

/-- What is declared for a zone with its number: the vote of the zone, and the trend that logs it. -/
structure Watches (m : Model) (u : String × Nat) : Prop where
  vote : ∃ s ∈ m.sensors, s.name.text = voteName u.2 ∧ s.key = u.1 ∧ s.output = voteOutput
  trend : ∃ t ∈ m.trends, t.name.text = trendName u.2 ∧ t.source.text = voteName u.2

/-- When a run ends.  Whatever zones are watched, running the subroutine of a zone comes to an end,
    and it has reached an assignment that ends the run exactly when the running average of the zone
    is at the upper bound or above, or at minus the lower magnitude or below.  There are averages at
    which the run goes on exactly when minus the magnitude is below the upper bound. -/
theorem call_halt {K : Type} [Field K] [LinearOrder K] [IsStrictOrderedRing K] {c : Comfort}
    {a next : Numbering} {m : Model} (built : (Measure.comfortHalt c).build a = .ok (m, next))
    (calls : String → List K → K) (test : Expression → Store K → Bool) (depth : Nat)
    {u : String × Nat} (hu : u ∈ c.zones.zipIdx a.next) :
    Watches m u ∧ ∃ p ∈ m.subroutines, p.name.text = haltName u.2 ∧
      (∀ σ : Store K, ∃ τ,
        m.call (Arithmetic.exact calls test).evaluation.machine (depth + 1) p.name σ = some τ ∧
        m.call ((Arithmetic.exact calls test).evaluation.machine.noting (·.calls ending)) (depth + 1)
          p.name (σ, false) = some (τ, decide (Crossed c (σ (averageKey u.2))))) ∧
      ((∃ σ τ : Store K,
        m.call ((Arithmetic.exact calls test).evaluation.machine.noting (·.calls ending)) (depth + 1)
          p.name (σ, false) = some (τ, false)) ↔
        -(Number.exact c.minVote : K) < (Number.exact c.maxVote : K)) := by
  have ran : (c.script a).run .empty = .ok m := (build_eq_ok_iff.1 built).1
  obtain ⟨-, bounds, timesteps, shape⟩ := outline ran
  have part : c.zoneScript timesteps u.1 u.2 ⊆ c.script a := by
    intro x hx
    rw [shape]
    exact List.mem_flatMap.2 ⟨u, hu, hx⟩
  have sensor : Script.sensor (voteName u.2) u.1 voteOutput ⊆ c.script a :=
    fun x hx => part (by simp [zoneScript, hx])
  have trend : Script.trend (trendName u.2) (voteName u.2) timesteps ⊆ c.script a :=
    fun x hx => part (by simp [zoneScript, hx])
  obtain ⟨s, hs, vote, key, output⟩ := Script.exists_sensor_of_part ran sensor
  obtain ⟨t, ht, named, source⟩ := Script.exists_trend_of_part ran trend
  obtain ⟨p, hp, name, body, runs⟩ := Script.call_of_part ran (halt_subset part)
  have ends (σ : Store K) : ∃ τ,
      m.call (Arithmetic.exact calls test).evaluation.machine (depth + 1) p.name σ = some τ ∧
      m.call ((Arithmetic.exact calls test).evaluation.machine.noting (·.calls ending)) (depth + 1)
        p.name (σ, false) = some (τ, decide (Crossed c (σ (averageKey u.2)))) := by
    obtain ⟨τ, noted⟩ := run_haltBody (finite_of_checkBounds bounds) body calls test
      (m.call ((Arithmetic.exact calls test).evaluation.machine.noting (·.calls ending)) depth) σ
    rw [← runs _ depth p.name _ name] at noted
    have plain := m.call_noting (Arithmetic.exact calls test).evaluation.machine (·.calls ending)
      (depth + 1) p.name (σ, false)
    rw [noted] at plain
    exact ⟨τ, plain.symm, noted⟩
  refine ⟨⟨⟨s, hs, vote, key, output⟩, t, ht, named, source⟩, p, hp, name, ends, ?_⟩
  rw [← exists_not_crossed_iff]
  constructor
  · rintro ⟨σ, τ, goesOn⟩
    obtain ⟨_, -, noted⟩ := ends σ
    rw [goesOn] at noted
    have flag := congrArg Prod.snd (Option.some.inj noted)
    exact ⟨_, of_decide_eq_false flag.symm⟩
  · rintro ⟨vote, between⟩
    obtain ⟨τ, -, noted⟩ := ends fun _ => vote
    rw [decide_eq_false between] at noted
    exact ⟨_, τ, noted⟩

/-- A lower magnitude of minus one and an upper bound of one half: the lower bound is one. -/
def inverted : Comfort :=
  { default with
    zones := ["Core"]
    minVote := -1.0
    maxVote := 0.5 }

/-- The check lets these bounds pass, and the run ends at every vote. -/
theorem call_halt_inverted : ∃ m next p,
    (Measure.comfortHalt inverted).build .first = .ok (m, next) ∧ p ∈ m.subroutines ∧
      p.name.text = "a_1_Kill_Run_if_Uncomfortable" ∧ ∀ σ : Store ℚ, ∃ τ,
        m.call ((Arithmetic.exact (fun _ _ => 0) fun _ _ => false).evaluation.machine.noting
          (·.calls ending)) 1 p.name (σ, false) = some (τ, true) := by
  have builds : ((Measure.comfortHalt inverted).build .first).isOk = true := by decide +kernel
  obtain ⟨⟨m, next⟩, built⟩ := exists_of_isOk builds
  have zone : ("Core", 1) ∈ inverted.zones.zipIdx Numbering.first.next := by decide
  obtain ⟨-, p, hp, name, ends, -⟩ :=
    call_halt built (fun _ _ => (0 : ℚ)) (fun _ _ => false) 0 zone
  refine ⟨m, next, p, built, hp, name, fun σ => ?_⟩
  obtain ⟨τ, -, noted⟩ := ends σ
  have high : Number.exact inverted.maxVote = 1 / 2 := by decide +kernel
  have low : Number.exact inverted.minVote = -1 := by decide +kernel
  have crossed : Crossed inverted (σ (averageKey 1)) := by
    rw [Crossed, high, low, Rat.cast_id, Rat.cast_id, neg_neg]
    rcases le_total (1 / 2) (σ (averageKey 1)) with above | below
    · exact .inl above
    · exact .inr (below.trans (by norm_num))
  rw [decide_eq_true crossed] at noted
  exact ⟨τ, noted⟩

end Measure.Comfort

end BuildingControl
