/-
  BuildingControl.Proofs.Erl.Grammar

  The grammar of blocks,

      Block ::= empty
              | Simple Block
              | IF Block (ELSEIF Block)* [ELSE Block] ENDIF Block

  against the check that branches match.  The check is one pass with one flag for
  each open `IF`, the grammar is recursive; between them stands `Closes`, which
  says what the lines behind an open `IF` have to look like.  A line that the check
  passes is a line that such a text may start with (`Closes.of_step`), and a block
  leaves the open branches as they are (`IsBlock.run`).

  The main result is `checkBlocks_grammar`: the check accepts the grammar, names
  the first line that no block can have in this place, and counts the `ENDIF`s that
  are missing.
-/
import BuildingControl.Proofs.Erl.Block
import Mathlib.Order.Bounds.Defs

namespace BuildingControl.Erl

/-! ## The grammar -/

/-- A line that is no part of an `IF`. -/
inductive Statement.IsSimple : Statement → Prop
  | assign (target : Name) (value : Expression) : IsSimple (.assign target value)
  | run (subroutine : Name) : IsSimple (.run subroutine)
  | leave : IsSimple .leave

/-- `ELSEIF` with its lines. -/
def elseIfLines (alternative : Condition × List Statement) : List Statement :=
  .elseIf alternative.1 :: alternative.2

/-- `ELSE` with its lines, if there is one. -/
def elseLines : Option (List Statement) → List Statement
  | none => []
  | some body => .otherwise :: body

/-- The lines behind `IF`, up to its `ENDIF`, and what comes after. -/
def branchLines (body : List Statement) (alternatives : List (Condition × List Statement))
    (fallback : Option (List Statement)) (rest : List Statement) : List Statement :=
  body ++ (alternatives.flatMap elseIfLines ++ (elseLines fallback ++ .endIf :: rest))

/-- The blocks of the grammar. -/
inductive IsBlock : List Statement → Prop
  | empty : IsBlock []
  | simple {s : Statement} {rest : List Statement} (plain : s.IsSimple) (more : IsBlock rest) :
      IsBlock (s :: rest)
  | branch {condition : Condition} {body : List Statement}
      {alternatives : List (Condition × List Statement)} {fallback : Option (List Statement)}
      {rest : List Statement} (inside : IsBlock body)
      (others : ∀ a ∈ alternatives, IsBlock a.2) (last : ∀ b ∈ fallback, IsBlock b)
      (more : IsBlock rest) :
      IsBlock (.ifThen condition :: branchLines body alternatives fallback rest)

/-! ## Blocks leave the open branches alone -/

/-- Lines after which the same branches are open as before. -/
def Neutral (ss : List Statement) : Prop :=
  ∀ line openIfs, runBlocks line openIfs ss = .ok openIfs

theorem stepBlock_of_isSimple {s : Statement} (h : s.IsSimple) (line : Nat) (openIfs : List Bool) :
    stepBlock line openIfs s = .ok openIfs := by
  cases h <;> rfl

/-- The alternatives of an `IF` leave it open, its `ELSE` not yet seen. -/
theorem run_alternatives {alternatives : List (Condition × List Statement)}
    (h : ∀ a ∈ alternatives, Neutral a.2) (line : Nat) (outer : List Bool) :
    runBlocks line (false :: outer) (alternatives.flatMap elseIfLines) = .ok (false :: outer) := by
  induction alternatives generalizing line with
  | nil => rfl
  | cons a others ih =>
    obtain ⟨first, later⟩ := List.forall_mem_cons.1 h
    have lines : runBlocks line (false :: outer) (elseIfLines a) = .ok (false :: outer) :=
      first (line + 1) (false :: outer)
    rw [List.flatMap_cons, runBlocks_of_ok lines]
    exact ih later _

/-- With or without an `ELSE`, an `ENDIF` closes the `IF`. -/
theorem run_fallback {fallback : Option (List Statement)} (h : ∀ b ∈ fallback, Neutral b)
    (line : Nat) (outer : List Bool) :
    runBlocks line (false :: outer) (elseLines fallback ++ [.endIf]) = .ok outer := by
  cases fallback with
  | none => rfl
  | some body =>
    have lines : runBlocks line (false :: outer) (.otherwise :: body) = .ok (true :: outer) :=
      h body rfl (line + 1) (true :: outer)
    rw [elseLines, runBlocks_of_ok lines]
    rfl

/-- A block leaves the open branches as they are. -/
theorem IsBlock.run {ss : List Statement} (h : IsBlock ss) : Neutral ss := by
  induction h with
  | empty => exact fun _ _ => rfl
  | simple plain more ih =>
    intro line openIfs
    rw [runBlocks_cons_of_ok (stepBlock_of_isSimple plain line openIfs), ih]
  | @branch condition body alternatives fallback rest _ _ _ _ inside others last more =>
    intro line openIfs
    have opened : stepBlock line openIfs (.ifThen condition) = .ok (false :: openIfs) := rfl
    have closed : ∀ line, runBlocks line (false :: openIfs)
        (elseLines fallback ++ .endIf :: rest) = .ok openIfs := by
      intro line
      rw [List.append_cons, runBlocks_of_ok (run_fallback last line openIfs)]
      exact more _ openIfs
    rw [runBlocks_cons_of_ok opened, branchLines, runBlocks_of_ok (inside _ _),
      runBlocks_of_ok (run_alternatives others _ _)]
    exact closed _

/-! ## What closes open branches -/

/-- The lines that may follow while these branches are open, the innermost first: what is left of
    the innermost `IF`, without `ELSEIF` and `ELSE` if its `ELSE` has been seen, then what may
    follow outside it. -/
inductive Closes : List Bool → List Statement → Prop
  | block {ss : List Statement} (h : IsBlock ss) : Closes [] ss
  | branch {seenElse : Bool} {outer : List Bool} {body : List Statement}
      {alternatives : List (Condition × List Statement)} {fallback : Option (List Statement)}
      {rest : List Statement} (inside : IsBlock body)
      (others : ∀ a ∈ alternatives, IsBlock a.2) (last : ∀ b ∈ fallback, IsBlock b)
      (once : seenElse = true → alternatives = [] ∧ fallback = none) (outside : Closes outer rest) :
      Closes (seenElse :: outer) (branchLines body alternatives fallback rest)

namespace Closes

variable {openIfs outer : List Bool} {ss : List Statement}

theorem simple (h : Closes openIfs ss) {s : Statement} (plain : s.IsSimple) :
    Closes openIfs (s :: ss) := by
  cases h with
  | block h => exact .block (.simple plain h)
  | branch inside others last once outside =>
    exact .branch (.simple plain inside) others last once outside

theorem ifThen (h : Closes (false :: openIfs) ss) (condition : Condition) :
    Closes openIfs (.ifThen condition :: ss) := by
  cases h with
  | @branch _ _ body alternatives fallback rest inside others last _ outside =>
    cases outside with
    | block h => exact .block (.branch inside others last h)
    | @branch seenElse outer body' alternatives' fallback' rest' inside' others' last' once' outside' =>
      -- the new `IF` is at the front of the block that the next one outside goes on with
      have front : IsBlock (.ifThen condition :: branchLines body alternatives fallback body') :=
        .branch inside others last inside'
      have lines : .ifThen condition :: branchLines body alternatives fallback
            (branchLines body' alternatives' fallback' rest') =
          branchLines (.ifThen condition :: branchLines body alternatives fallback body')
            alternatives' fallback' rest' := by
        simp [branchLines]
      rw [lines]
      exact .branch front others' last' once' outside'

theorem elseIf (h : Closes (false :: outer) ss) (condition : Condition) :
    Closes (false :: outer) (.elseIf condition :: ss) := by
  cases h with
  | @branch _ _ body alternatives fallback rest inside others last _ outside =>
    have lines : .elseIf condition :: branchLines body alternatives fallback rest =
        branchLines [] ((condition, body) :: alternatives) fallback rest := by
      simp [branchLines, elseIfLines]
    rw [lines]
    exact .branch .empty (List.forall_mem_cons.2 ⟨inside, others⟩) last nofun outside

theorem otherwise (h : Closes (true :: outer) ss) :
    Closes (false :: outer) (.otherwise :: ss) := by
  cases h with
  | @branch _ _ body alternatives fallback rest inside _ _ once outside =>
    obtain ⟨rfl, rfl⟩ := once rfl
    have lines : .otherwise :: branchLines body [] none rest = branchLines [] [] (some body) rest := rfl
    rw [lines]
    exact .branch .empty nofun (fun b hb => Option.some.inj hb ▸ inside) nofun outside

theorem endIf (h : Closes outer ss) (seenElse : Bool) :
    Closes (seenElse :: outer) (.endIf :: ss) := by
  have lines : .endIf :: ss = branchLines [] [] none ss := rfl
  rw [lines]
  exact .branch .empty nofun nofun (fun _ => ⟨rfl, rfl⟩) h

/-- A line that the check passes may stand in front of what closes the branches after it. -/
theorem of_step {line : Nat} {s : Statement} {next : List Bool}
    (h : stepBlock line openIfs s = .ok next) (closes : Closes next ss) :
    Closes openIfs (s :: ss) := by
  cases s with
  | assign target value =>
    cases h
    exact closes.simple (.assign target value)
  | run subroutine =>
    cases h
    exact closes.simple (.run subroutine)
  | leave =>
    cases h
    exact closes.simple .leave
  | ifThen condition =>
    cases h
    exact closes.ifThen condition
  | elseIf condition =>
    rcases openIfs with _ | ⟨_ | _, outer⟩ <;> cases h
    exact closes.elseIf condition
  | otherwise =>
    rcases openIfs with _ | ⟨_ | _, outer⟩ <;> cases h
    exact closes.otherwise
  | endIf =>
    rcases openIfs with _ | ⟨seenElse, outer⟩ <;> cases h
    exact closes.endIf seenElse

theorem of_run {line : Nat} (h : runBlocks line openIfs ss = .ok []) : Closes openIfs ss := by
  induction ss generalizing line openIfs with
  | nil =>
    cases h
    exact .block .empty
  | cons s rest ih =>
    obtain ⟨next, step, passed⟩ := runBlocks_cons_eq_ok_iff.1 h
    exact of_step step (ih passed)

end Closes

/-! ## The check against the grammar -/

theorem isBlock_iff_run {ss : List Statement} (line : Nat) :
    IsBlock ss ↔ runBlocks line [] ss = .ok [] := by
  constructor
  · intro h
    exact h.run line []
  · intro h
    cases Closes.of_run h with
    | block h => exact h

/-- Lines that a check passes, followed by `ENDIF`s: each closes the innermost branch. -/
theorem run_endIfs {line : Nat} {openIfs : List Bool} {count : Nat} (h : count ≤ openIfs.length) :
    runBlocks line openIfs (List.replicate count .endIf) = .ok (openIfs.drop count) := by
  induction count generalizing line openIfs with
  | zero => rfl
  | succ count ih =>
    cases openIfs with
    | nil => cases h
    | cons seenElse outer =>
      have step : stepBlock line (seenElse :: outer) .endIf = .ok outer := rfl
      rw [List.replicate_succ, runBlocks_cons_of_ok step, List.drop_succ_cons]
      exact ih (Nat.le_of_succ_le_succ h)

/-- Lines that the check passes need one `ENDIF` for each open branch to become a block, and no
    fewer will do. -/
theorem isLeast_endIfs {ss : List Statement} {openIfs : List Bool}
    (h : runBlocks 1 [] ss = .ok openIfs) :
    IsLeast {count | IsBlock (ss ++ List.replicate count .endIf)} openIfs.length := by
  constructor
  · show IsBlock (ss ++ List.replicate openIfs.length .endIf)
    rw [isBlock_iff_run 1, runBlocks_of_ok h, run_endIfs (Nat.le_refl _), List.drop_length]
  · intro count closed
    by_contra fewer
    have some : openIfs.drop count ≠ [] := by simpa using fewer
    have passed : runBlocks 1 [] (ss ++ List.replicate count .endIf) = .ok [] :=
      (isBlock_iff_run 1).1 closed
    rw [runBlocks_of_ok h, run_endIfs (by omega), Except.ok.injEq] at passed
    exact some passed

/-- A line that the check stops at cannot stand there: the lines before it are the front of a
    block, and with it they are not. -/
theorem stops_of_run {ss : List Statement} {fault : BranchFault}
    (h : runBlocks 1 [] ss = .error fault) :
    ∃ k, fault.line? = some (k + 1) ∧ k < ss.length ∧
      (∃ more, IsBlock (ss.take k ++ more)) ∧ ∀ more, ¬ IsBlock (ss.take (k + 1) ++ more) := by
  obtain ⟨front, s, back, openIfs, rfl, passed, stopped⟩ := exists_of_runBlocks_eq_error h
  have before : (front ++ s :: back).take front.length = front := List.take_left
  have upTo : (front ++ s :: back).take (front.length + 1) = front ++ [s] := by
    rw [List.append_cons]
    exact List.take_left' List.length_append
  refine ⟨front.length, ?_, by simp, ?_, ?_⟩
  · rw [line?_of_stepBlock stopped, Nat.add_comm]
  · rw [before]
    exact ⟨_, (isLeast_endIfs passed).1⟩
  · intro more block
    have fails : runBlocks 1 [] (front ++ [s]) = .error fault := by
      rw [runBlocks_of_ok passed, runBlocks_cons_of_error stopped]
    rw [upTo, isBlock_iff_run 1, runBlocks_of_error fails] at block
    cases block

/-- The check accepts the blocks of the grammar.  A fault with a line number names the first line
    with which the program is no longer the front of a block; a fault without one counts the
    `ENDIF`s that complete the program.  Lines are refused for their branches, as a program, exactly
    when they are no block; the look at the finished text finds nothing in a block. -/
theorem checkBlocks_grammar (ss : List Statement) :
    (checkBlocks ss = .ok () ↔ IsBlock ss) ∧
    (∀ fault k, checkBlocks ss = .error fault → fault.line? = some k →
      1 ≤ k ∧ k ≤ ss.length ∧ (∃ more, IsBlock (ss.take (k - 1) ++ more)) ∧
        ∀ more, ¬ IsBlock (ss.take k ++ more)) ∧
    (∀ fault, checkBlocks ss = .error fault → fault.line? = none →
      ∃ n, fault = .unclosed n ∧
        IsLeast {count | IsBlock (ss ++ List.replicate count .endIf)} n) ∧
    (ss ≠ [] →
      ((∃ fault, Code.ofStatements ss = .error (.unmatchedBranch fault)) ↔ ¬ IsBlock ss)) ∧
    (IsBlock ss → checkLines (ss.map Statement.render) = .ok ()) := by
  have accepts : checkBlocks ss = .ok () ↔ IsBlock ss := by
    rw [checkBlocks_eq_ok_iff_run, isBlock_iff_run 1]
  refine ⟨accepts, ?_, ?_, ?_, fun block => checkLines_of_checkBlocks (accepts.2 block)⟩
  · intro fault k failed named
    rcases checkBlocks_eq_error_iff.1 failed with stopped | ⟨seenElse, outer, -, rfl⟩
    · obtain ⟨j, line, inside, front, dead⟩ := stops_of_run stopped
      rw [named] at line
      cases line
      exact ⟨Nat.succ_pos j, inside, front, dead⟩
    · cases named
  · intro fault failed unnamed
    rcases checkBlocks_eq_error_iff.1 failed with stopped | ⟨seenElse, outer, left, rfl⟩
    · obtain ⟨j, line, -⟩ := stops_of_run stopped
      rw [unnamed] at line
      cases line
    · exact ⟨_, rfl, isLeast_endIfs left⟩
  · intro nonempty
    have refused {fault : BranchFault} :
        Code.ofStatements ss = .error (.unmatchedBranch fault) ↔ checkBlocks ss = .error fault := by
      rw [Code.ofStatements_eq_error_iff, examine_eq_unmatchedBranch_iff, and_iff_right nonempty]
    rw [← accepts]
    cases checked : checkBlocks ss with
    | ok u => simp [refused, checked]
    | error fault => exact ⟨nofun, fun _ => ⟨fault, refused.2 checked⟩⟩

end BuildingControl.Erl
