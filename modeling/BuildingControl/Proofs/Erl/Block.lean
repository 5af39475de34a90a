/-
  BuildingControl.Proofs.Erl.Block

  Runs of the check that branches match.  The check passes over one list of lines
  and then over the next (`runBlocks_of_ok`), and where it fails it names the line
  that it stopped at (`exists_of_runBlocks_eq_error`).  Every line keeps the
  balance between branches that its text opens or closes and branches that are
  open, so the look at the finished text never finds anything
  (`checkLines_of_checkBlocks`).
-/
import BuildingControl.Proofs.Erl.Fault
import BuildingControl.Proofs.Erl.Reading

namespace BuildingControl.Erl

/-! ## One list of lines after another -/

variable {line : Nat} {openIfs next : List Bool} {fault : BranchFault} {front : List Statement}

theorem runBlocks_cons_of_ok {s : Statement} (h : stepBlock line openIfs s = .ok next)
    (rest : List Statement) :
    runBlocks line openIfs (s :: rest) = runBlocks (line + 1) next rest := by
  rw [runBlocks, h]

theorem runBlocks_cons_of_error {s : Statement} (h : stepBlock line openIfs s = .error fault)
    (rest : List Statement) : runBlocks line openIfs (s :: rest) = .error fault := by
  rw [runBlocks, h]

/-- The first line is passed, and the others are passed after it. -/
theorem runBlocks_cons_eq_ok_iff {s : Statement} {rest : List Statement} {last : List Bool} :
    runBlocks line openIfs (s :: rest) = .ok last ↔
      ∃ next, stepBlock line openIfs s = .ok next ∧ runBlocks (line + 1) next rest = .ok last := by
  cases h : stepBlock line openIfs s with
  | error fault =>
    rw [runBlocks_cons_of_error h]
    exact ⟨nofun, nofun⟩
  | ok next =>
    rw [runBlocks_cons_of_ok h]
    exact ⟨fun passed => ⟨next, rfl, passed⟩, fun ⟨_, same, passed⟩ => by cases same; exact passed⟩

/-- Lines behind lines that are passed. -/
theorem runBlocks_of_ok (h : runBlocks line openIfs front = .ok next) (back : List Statement) :
    runBlocks line openIfs (front ++ back) = runBlocks (line + front.length) next back := by
  induction front generalizing line openIfs with
  | nil =>
    cases h
    rfl
  | cons s front ih =>
    obtain ⟨between, step, passed⟩ := runBlocks_cons_eq_ok_iff.1 h
    rw [List.cons_append, runBlocks_cons_of_ok step, ih passed, List.length_cons]
    congr 1
    omega

/-- Lines behind lines that fail do not matter. -/
theorem runBlocks_of_error (h : runBlocks line openIfs front = .error fault)
    (back : List Statement) : runBlocks line openIfs (front ++ back) = .error fault := by
  induction front generalizing line openIfs with
  | nil => cases h
  | cons s front ih =>
    rw [List.cons_append]
    cases step : stepBlock line openIfs s with
    | error early =>
      rw [runBlocks_cons_of_error step] at h
      rw [runBlocks_cons_of_error step, h]
    | ok between =>
      rw [runBlocks_cons_of_ok step] at h
      rw [runBlocks_cons_of_ok step, ih h]

/-! ## Where the check stops -/

/-- The line that a fault names. -/
def BranchFault.line? : BranchFault → Option Nat
  | .elseIfOutside line => some line
  | .elseIfAfterElse line => some line
  | .elseOutside line => some line
  | .secondElse line => some line
  | .endIfOutside line => some line
  | .unclosed _ => none
  | .uneven _ _ => none

theorem line?_of_stepBlock {s : Statement} (h : stepBlock line openIfs s = .error fault) :
    fault.line? = some line := by
  cases s <;> rcases openIfs with _ | ⟨_ | _, _⟩ <;> cases h <;> rfl

/-- A fault names the first line that is not passed. -/
theorem exists_of_runBlocks_eq_error {ss : List Statement}
    (h : runBlocks line openIfs ss = .error fault) :
    ∃ front s back next, ss = front ++ s :: back ∧ runBlocks line openIfs front = .ok next ∧
      stepBlock (line + front.length) next s = .error fault := by
  induction ss generalizing line openIfs with
  | nil => cases h
  | cons s rest ih =>
    cases step : stepBlock line openIfs s with
    | error early =>
      rw [runBlocks_cons_of_error step] at h
      cases h
      exact ⟨[], s, rest, openIfs, rfl, rfl, step⟩
    | ok between =>
      rw [runBlocks_cons_of_ok step] at h
      obtain ⟨front, t, back, next, rfl, passed, stopped⟩ := ih h
      refine ⟨s :: front, t, back, next, rfl, ?_, ?_⟩
      · rw [runBlocks_cons_of_ok step, passed]
      · rw [List.length_cons, Nat.add_comm front.length, ← Nat.add_assoc]
        exact stopped

/-! ## What the check says of a program -/

theorem checkBlocks_eq_ok_iff_run {ss : List Statement} :
    checkBlocks ss = .ok () ↔ runBlocks 1 [] ss = .ok [] := by
  unfold checkBlocks
  split <;> simp_all

/-- The check of a program fails at a line, or behind the last line with branches open. -/
theorem checkBlocks_eq_error_iff {ss : List Statement} :
    checkBlocks ss = .error fault ↔ runBlocks 1 [] ss = .error fault ∨
      ∃ seenElse outer, runBlocks 1 [] ss = .ok (seenElse :: outer) ∧
        fault = .unclosed (outer.length + 1) := by
  unfold checkBlocks
  cases runBlocks 1 [] ss with
  | error early => simp
  | ok openIfs =>
    cases openIfs with
    | nil => simp
    | cons seenElse outer => simp [eq_comm]

/-! ## The finished text -/

/-- Only the line `ENDIF` reads so. -/
theorem render_eq_endIf_iff {s : Statement} : s.render = "ENDIF" ↔ s = .endIf := by
  constructor
  · intro h
    have same : s.lineText = Statement.endIf.lineText := lineText_eq_of_render_eq h
    cases s with
    | endIf => rfl
    | _ => cases same
  · rintro rfl
    rfl

/-- Only an `IF` opens a branch. -/
theorem opensBranch_render (s : Statement) :
    opensBranch s.render = (s matches .ifThen _ : Bool) := by
  cases s <;> simp [opensBranch, Statement.render, String.toList_append, List.isPrefixOf]

/-- A line that is passed changes the number of open branches as its text does. -/
theorem length_of_stepBlock {s : Statement} (h : stepBlock line openIfs s = .ok next) :
    openIfs.length + [s.render].countP opensBranch = next.length + [s.render].count "ENDIF" := by
  have closes : [s.render].count "ENDIF" = if s matches .endIf then 1 else 0 := by
    by_cases last : s = .endIf
    · subst last
      rfl
    · have other : s.render ≠ "ENDIF" := fun same => last (render_eq_endIf_iff.1 same)
      cases s <;> simp_all
  have opens : [s.render].countP opensBranch = if s matches .ifThen _ then 1 else 0 := by
    rw [List.countP_singleton, opensBranch_render]
    cases s <;> rfl
  rw [closes, opens]
  cases s <;> rcases openIfs with _ | ⟨_ | _, _⟩ <;> cases h <;> rfl

/-- So do lines that are passed. -/
theorem length_of_runBlocks {ss : List Statement} (h : runBlocks line openIfs ss = .ok next) :
    openIfs.length + (ss.map Statement.render).countP opensBranch =
      next.length + (ss.map Statement.render).count "ENDIF" := by
  induction ss generalizing line openIfs with
  | nil =>
    cases h
    rfl
  | cons s rest ih =>
    obtain ⟨between, step, passed⟩ := runBlocks_cons_eq_ok_iff.1 h
    have first := length_of_stepBlock step
    have later := ih passed
    have split : s.render :: rest.map Statement.render =
        [s.render] ++ rest.map Statement.render := rfl
    rw [List.map_cons, split, List.countP_append, List.count_append]
    omega

/-- A program whose branches match has as many lines that open a branch as lines that close one. -/
theorem checkLines_of_checkBlocks {ss : List Statement} (h : checkBlocks ss = .ok ()) :
    checkLines (ss.map Statement.render) = .ok () := by
  have balance := length_of_runBlocks (checkBlocks_eq_ok_iff_run.1 h)
  simp only [List.length_nil, Nat.zero_add] at balance
  exact if_pos balance

/-! ## Programs -/

theorem examine_of_ne_nil {ss : List Statement} (h : ss ≠ []) :
    examine ss = do
      (checkBlocks ss).mapError .unmatchedBranch
      let usage ← usageOf ss
      (checkLines (ss.map Statement.render)).mapError .unmatchedBranch
      return usage :=
  if_neg (by simpa using h)

theorem examine_eq_ok_iff {ss : List Statement} {u : Usage} :
    examine ss = .ok u ↔ ss ≠ [] ∧ checkBlocks ss = .ok () ∧ usageOf ss = .ok u := by
  by_cases h : ss = []
  · subst h
    simp [examine]
  · rw [examine_of_ne_nil h, check_bind_eq_ok_iff, mapError_eq_ok_iff, bind_eq_ok_iff]
    simp only [check_bind_eq_ok_iff, mapError_eq_ok_iff]
    constructor
    · rintro ⟨blocks, usage, found, -, same⟩
      cases same
      exact ⟨h, blocks, found⟩
    · rintro ⟨-, blocks, found⟩
      exact ⟨blocks, u, found, checkLines_of_checkBlocks blocks, rfl⟩

/-- Lines are refused for their branches by the check of branches, never by the look at the
    finished text. -/
theorem examine_eq_unmatchedBranch_iff {ss : List Statement} :
    examine ss = .error (.unmatchedBranch fault) ↔ ss ≠ [] ∧ checkBlocks ss = .error fault := by
  by_cases h : ss = []
  · subst h
    simp [examine]
  · rw [examine_of_ne_nil h]
    cases blocks : checkBlocks ss with
    | error early =>
      show (Except.error (Fault.unmatchedBranch early) : Except Fault Usage) = _ ↔ _
      simp [h]
    | ok u =>
      rw [checkLines_of_checkBlocks blocks]
      cases usage : usageOf ss with
      | error other =>
        obtain ⟨text, reason, rfl⟩ := misnamed_usageOf ss other usage
        exact ⟨nofun, nofun⟩
      | ok found => exact ⟨nofun, nofun⟩

theorem Code.ofStatements_eq_error_iff {ss : List Statement} {fault : Fault} :
    Code.ofStatements ss = .error fault ↔ examine ss = .error fault := by
  unfold Code.ofStatements
  split
  · next usage examined =>
    refine ⟨nofun, fun failed => ?_⟩
    rw [examined] at failed
    cases failed
  · next early examined => rw [examined, Except.error.injEq, Except.error.injEq]

end BuildingControl.Erl
