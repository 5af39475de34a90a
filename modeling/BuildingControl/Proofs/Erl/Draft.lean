/-
  BuildingControl.Proofs.Erl.Draft

  Programs put together call by call.  A builder keeps the lines so far and the first
  fault; it becomes the program of the draft that its calls stand for
  (`Builder.Follows.take`).  A finished program may take the place of the calls that it
  was made of, and two programs in a row are a program with the names of both
  (`Draft.build_of_calls`).
-/
import BuildingControl.Proofs.Erl.Grammar
import BuildingControl.Proofs.Erl.RuleTable
import BuildingControl.Proofs.Erl.Usage

namespace BuildingControl.Erl

/-! ## Names of programs in a row -/

theorem Usage.append_assoc (u v w : Usage) : (u.append v).append w = u.append (v.append w) := by
  simp only [Usage.append, pushUnique_assoc]

/-- The names of more lines come behind those of the first. -/
theorem Usage.foldl_append (u : Usage) (us : List Usage) :
    us.foldl Usage.append u = u.append (us.foldl Usage.append .none) := by
  induction us generalizing u with
  | nil => rfl
  | cons v us ih =>
    have alone : u.append (Usage.none.append v) = u.append v := by
      rw [← Usage.append_assoc]
      rfl
    rw [List.foldl_cons, List.foldl_cons, ih (u.append v), ih (Usage.none.append v),
      ← Usage.append_assoc, alone]

theorem usageOf_append {ss ts : List Statement} {u v : Usage} (hs : usageOf ss = .ok u)
    (ht : usageOf ts = .ok v) : usageOf (ss ++ ts) = .ok (u.append v) := by
  rw [usageOf_eq] at ht
  obtain ⟨us, each, folded⟩ := map_eq_ok_iff.1 ht
  have later : ts.foldlM (fun acc s => s.usage.map acc.append) u = .ok (u.append v) := by
    rw [foldlM_map_eq, each, ← folded, ← Usage.foldl_append]
    rfl
  have first : ss.foldlM (fun acc s => s.usage.map acc.append) Usage.none = .ok u := hs
  rw [usageOf, List.foldlM_append, first]
  exact later

/-- A program has each of its names once. -/
theorem Code.usage_eq_none_append (c : Code) : c.usage = Usage.none.append c.usage := by
  have usage := (examine_eq_ok_iff.1 c.examined).2.2
  rw [usageOf_eq] at usage
  obtain ⟨us, -, folded⟩ := map_eq_ok_iff.1 usage
  rw [← folded]
  exact Usage.foldl_append .none us

theorem Code.nodup_reads (c : Code) : c.reads.Nodup := by
  rw [Code.reads, c.usage_eq_none_append]
  exact nodup_pushUnique List.nodup_nil _

theorem Code.nodup_writes (c : Code) : c.writes.Nodup := by
  rw [Code.writes, c.usage_eq_none_append]
  exact nodup_pushUnique List.nodup_nil _

theorem Code.nodup_runs (c : Code) : c.runs.Nodup := by
  rw [Code.runs, c.usage_eq_none_append]
  exact nodup_pushUnique List.nodup_nil _

theorem Code.ofStatements_of_examine {ss : List Statement} {u : Usage}
    (h : examine ss = .ok u) : Code.ofStatements ss = .ok ⟨ss, u, h⟩ := by
  unfold Code.ofStatements
  split
  · next usage examined =>
    have same : usage = u := Except.ok.inj (examined.symm.trans h)
    subst same
    rfl
  · next fault examined => cases examined.symm.trans h

/-- The lines of one program and then of another are a program, with the names of both. -/
theorem Code.ofStatements_append (p q : Code) :
    ∃ r, Code.ofStatements (p.statements ++ q.statements) = .ok r ∧
      r.lines = p.lines ++ q.lines ∧ r.usage = p.usage.append q.usage := by
  obtain ⟨nonempty, pBlocks, pUsage⟩ := examine_eq_ok_iff.1 p.examined
  obtain ⟨-, qBlocks, qUsage⟩ := examine_eq_ok_iff.1 q.examined
  -- the branches of the second are counted from a later line
  have pRun := checkBlocks_eq_ok_iff_run.1 pBlocks
  have qRun : runBlocks (1 + p.statements.length) [] q.statements = .ok [] :=
    (isBlock_iff_run _).1 ((isBlock_iff_run 1).2 (checkBlocks_eq_ok_iff_run.1 qBlocks))
  have blocks : checkBlocks (p.statements ++ q.statements) = .ok () := by
    rw [checkBlocks_eq_ok_iff_run, runBlocks_of_ok pRun, qRun]
  have examined : examine (p.statements ++ q.statements) = .ok (p.usage.append q.usage) :=
    examine_eq_ok_iff.2 ⟨by simp [nonempty], blocks, usageOf_append pUsage qUsage⟩
  exact ⟨_, Code.ofStatements_of_examine examined, List.map_append, rfl⟩

namespace Draft

/-! ## Calls -/

/-- A call that puts lines behind those of a builder. -/
inductive Call
  | set (target value : String)
  | ifCompare (subject : String) (comparison : Comparison) (value : Float)
  | elseIfCompare (subject : String) (comparison : Comparison) (value : Float)
  | ifTest (text : String)
  | elseIfTest (text : String)
  | otherwise
  | endIf
  | run (subroutine : String)
  | leave
  | push (s : Statement)
  | append (c : Code)

/-- The draft that a call stands for. -/
def Call.draft : Call → Draft
  | .set target value => Draft.set target value
  | .ifCompare subject comparison value => Draft.compare .ifThen subject comparison value
  | .elseIfCompare subject comparison value => Draft.compare .elseIf subject comparison value
  | .ifTest text => Draft.test .ifThen text
  | .elseIfTest text => Draft.test .elseIf text
  | .otherwise => Draft.push .otherwise
  | .endIf => Draft.push .endIf
  | .run subroutine => Draft.run subroutine
  | .leave => Draft.push .leave
  | .push s => Draft.push s
  | .append c => Draft.ofCode c

/-- The lines of a call, or why it is invalid. -/
def Call.lines (call : Call) : Except Fault (List Statement) :=
  call.draft.statements?

/-- The draft that calls stand for. -/
def ofCalls (calls : List Call) : Draft :=
  calls.flatMap Call.draft

/-- What is kept from call to call: the lines so far, and the first fault. -/
structure Builder where
  statements : List Statement
  fault : Option Fault

/-- A builder before the first call. -/
def Builder.empty : Builder := ⟨[], none⟩

/-- One call: its lines are put behind the others, a fault is kept if it is the first. -/
def Builder.take (b : Builder) (call : Call) : Builder :=
  match call.lines with
  | .ok statements => { b with statements := b.statements ++ statements }
  | .error fault => { b with fault := b.fault.or (some fault) }

/-- The program of a builder. -/
def Builder.build (b : Builder) : Except Fault Code :=
  match b.fault with
  | some fault => .error fault
  | none => Code.ofStatements b.statements

/-! ## Drafts in a row -/

theorem statements?_append_of_ok {d : Draft} {ss : List Statement} (h : d.statements? = .ok ss)
    (e : Draft) : Draft.statements? (d ++ e) = e.statements?.map (ss ++ ·) := by
  rw [statements?_eq_ok_iff, AllOk] at h
  subst h
  induction ss with
  | nil =>
    show e.statements? = _
    cases e.statements? <;> rfl
  | cons s ss ih =>
    rw [List.map_cons, List.cons_append, statements?, ih]
    cases e.statements? <;> rfl

theorem statements?_append_of_error {d : Draft} {fault : Fault} (h : d.statements? = .error fault)
    (e : Draft) : Draft.statements? (d ++ e) = .error fault := by
  induction d with
  | nil => cases h
  | cons line d ih =>
    rw [List.cons_append]
    -- the fault is that of the first line, or it comes from the lines behind it
    cases line with
    | error first => exact h
    | ok s =>
      rw [statements?] at h ⊢
      cases rest : statements? d with
      | ok ss =>
        rw [rest] at h
        cases h
      | error later =>
        rw [rest] at h
        cases h
        rw [ih rest]
        rfl

theorem build_of_statements? {d : Draft} {ss : List Statement} (h : d.statements? = .ok ss) :
    d.build = Code.ofStatements ss := by
  rw [build, h]

theorem build_of_fault {d : Draft} {fault : Fault} (h : d.statements? = .error fault) :
    d.build = .error fault := by
  rw [build, h]

/-! ## Builders -/

/-- A builder that has come as far as a draft. -/
def Builder.Follows (b : Builder) (d : Draft) : Prop :=
  match b.fault with
  | some fault => d.statements? = .error fault
  | none => d.statements? = .ok b.statements

theorem Builder.follows_empty : Builder.empty.Follows [] := rfl

/-- A call takes a builder as far as the lines of the call take the draft. -/
theorem Builder.Follows.take {b : Builder} {d : Draft} (h : b.Follows d) (call : Call) :
    (b.take call).Follows (d ++ call.draft) := by
  obtain ⟨statements, fault⟩ := b
  cases fault with
  | some first =>
    -- whatever the call says, the first fault stays
    have failed : Draft.statements? (d ++ call.draft) = .error first :=
      statements?_append_of_error h call.draft
    unfold Builder.take
    split
    · exact failed
    · exact failed
  | none =>
    have passed := statements?_append_of_ok h call.draft
    unfold Builder.take
    split
    · next lines called =>
      rw [Call.lines] at called
      rw [called] at passed
      exact passed
    · next fault called =>
      rw [Call.lines] at called
      rw [called] at passed
      exact passed

/-- So do calls one after the other. -/
theorem Builder.Follows.foldl {b : Builder} {d : Draft} (h : b.Follows d) (calls : List Call) :
    (calls.foldl Builder.take b).Follows (d ++ ofCalls calls) := by
  induction calls generalizing b d with
  | nil =>
    rw [ofCalls, List.flatMap_nil, List.append_nil]
    exact h
  | cons call calls ih =>
    rw [ofCalls, List.flatMap_cons, ← List.append_assoc]
    exact ih (h.take call)

theorem Builder.Follows.build_eq {b : Builder} {d : Draft} (h : b.Follows d) :
    b.build = d.build := by
  obtain ⟨statements, fault⟩ := b
  cases fault with
  | some first => exact (build_of_fault h).symm
  | none => exact (build_of_statements? h).symm

/-! ## Calls in a row -/

theorem ofCalls_append (calls more : List Call) :
    ofCalls (calls ++ more) = ofCalls calls ++ ofCalls more :=
  List.flatMap_append

/-- The lines of valid calls. -/
theorem statements?_ofCalls {calls : List Call} {parts : List (List Statement)}
    (h : List.Forall₂ (fun call ss => call.lines = .ok ss) calls parts) :
    (ofCalls calls).statements? = .ok parts.flatten :=
  statements?_eq_ok_iff.2
    (allOk_flatMap_iff.2 ⟨parts, h.imp fun _ _ => statements?_eq_ok_iff.1, rfl⟩)

/-- The first invalid call counts. -/
theorem statements?_ofCalls_of_error {front back : List Call} {call : Call} {fault : Fault}
    (valid : ∀ c ∈ front, c.lines.isOk = true) (h : call.lines = .error fault) :
    (ofCalls (front ++ call :: back)).statements? = .error fault := by
  obtain ⟨parts, lines⟩ : ∃ parts, eachOk Call.lines front = .ok parts := by
    induction front with
    | nil => exact ⟨[], rfl⟩
    | cons c front ih =>
      obtain ⟨first, rest⟩ := List.forall_mem_cons.1 valid
      obtain ⟨ss, hss⟩ := exists_of_isOk first
      obtain ⟨parts, hparts⟩ := ih rest
      exact ⟨ss :: parts, by rw [eachOk, hss, hparts]; rfl⟩
  have passed := statements?_ofCalls (eachOk_eq_ok_iff.1 lines)
  have stopped : Draft.statements? (call.draft ++ ofCalls back) = .error fault :=
    statements?_append_of_error h (ofCalls back)
  have split : ofCalls (front ++ call :: back) = ofCalls front ++ (call.draft ++ ofCalls back) :=
    ofCalls_append front (call :: back)
  rw [split, statements?_append_of_ok passed, stopped]
  rfl

/-- Programs put together call by call.  A builder that keeps the first fault becomes the program
    of its calls: the lines of all calls in a row when every call is valid, and the fault of the
    first invalid call otherwise.  The calls that make a program may be replaced by the program.
    Two programs in a row are a program again, with the lines of both and the names of the first
    before the other names of the second. -/
theorem build_of_calls (calls : List Call) :
    (calls.foldl Builder.take .empty).build = (ofCalls calls).build ∧
    (∀ parts, List.Forall₂ (fun call ss => call.lines = .ok ss) calls parts →
      (ofCalls calls).build = Code.ofStatements parts.flatten) ∧
    (∀ front call back fault, calls = front ++ call :: back →
      (∀ c ∈ front, c.lines.isOk = true) → call.lines = .error fault →
      (ofCalls calls).build = .error fault) ∧
    (∀ more q, (ofCalls more).build = .ok q →
      (ofCalls (calls ++ [.append q])).build = (ofCalls (calls ++ more)).build) ∧
    ∀ p q : Code, ∃ r, (ofCalls [.append p, .append q]).build = .ok r ∧
      r.lines = p.lines ++ q.lines ∧
      r.reads = p.reads ++ q.reads.filter (· ∉ p.reads) ∧
      r.writes = p.writes ++ q.writes.filter (· ∉ p.writes) ∧
      r.runs = p.runs ++ q.runs.filter (· ∉ p.runs) := by
  refine ⟨(Builder.follows_empty.foldl calls).build_eq, fun parts valid => ?_, ?_, ?_, ?_⟩
  · exact build_of_statements? (statements?_ofCalls valid)
  · rintro front call back fault rfl valid invalid
    exact build_of_fault (statements?_ofCalls_of_error valid invalid)
  · intro more q built
    have lines : ofCalls more = q.statements.map .ok := statements_of_build built
    have appended : ofCalls [.append q] = q.statements.map .ok := List.append_nil _
    rw [ofCalls_append, ofCalls_append, appended, lines]
  · intro p q
    obtain ⟨r, built, lines, usage⟩ := Code.ofStatements_append p q
    have valid : List.Forall₂ (fun call ss => call.lines = .ok ss) [Call.append p, .append q]
        [p.statements, q.statements] :=
      .cons (statements?_eq_ok_iff.2 rfl) (.cons (statements?_eq_ok_iff.2 rfl) .nil)
    have whole := build_of_statements? (statements?_ofCalls valid)
    rw [List.flatten_cons, List.flatten_cons, List.flatten_nil, List.append_nil] at whole
    refine ⟨r, whole.trans built, lines, ?_, ?_, ?_⟩
    · rw [← pushUnique_eq_append q.nodup_reads, Code.reads, usage]
      rfl
    · rw [← pushUnique_eq_append q.nodup_writes, Code.writes, usage]
      rfl
    · rw [← pushUnique_eq_append q.nodup_runs, Code.runs, usage]
      rfl

/-- A fault behind a valid call, and two programs that share a name: the second call is blamed,
    and the name is read once. -/
theorem build_of_calls_shared :
    (ofCalls [.set "Fan" "1.0", .set "Bad Name" "1.0", .otherwise, .run "Also-Bad"]).build =
      .error (.invalidName "Bad Name" .character) ∧
    ∃ p q r,
      (ofCalls [.set "Fan" "Load + Base", .run "Select"]).build = .ok p ∧
      (ofCalls [.ifCompare "Load" .lt 6.0, .set "Pump" "Flow", .endIf]).build = .ok q ∧
      (ofCalls [.append p, .append q]).build = .ok r ∧
      (ofCalls [.append p, .ifCompare "Load" .lt 6.0, .set "Pump" "Flow", .endIf]).build = .ok r ∧
      r.reads.map Name.text = ["Load", "Base", "Flow"] := by
  have pBuilds : ((ofCalls [.set "Fan" "Load + Base", .run "Select"]).build.toOption.map
      fun c => c.reads.map Name.text) = some ["Load", "Base"] := by decide +kernel
  have qBuilds : ((ofCalls [.ifCompare "Load" .lt 6.0, .set "Pump" "Flow", .endIf]).build.toOption.map
      fun c => c.reads.map Name.text) = some ["Load", "Flow"] := by decide +kernel
  obtain ⟨p, hp, pReads⟩ := Option.map_eq_some_iff.1 pBuilds
  obtain ⟨q, hq, qReads⟩ := Option.map_eq_some_iff.1 qBuilds
  have built := eq_ok_of_toOption hq
  obtain ⟨-, -, blamed, -, -⟩ := build_of_calls
    [.set "Fan" "1.0", .set "Bad Name" "1.0", .otherwise, .run "Also-Bad"]
  obtain ⟨-, -, -, replaced, joined⟩ := build_of_calls [.append p]
  obtain ⟨r, hr, -, reads, -, -⟩ := joined p q
  refine ⟨blamed [.set "Fan" "1.0"] _ _ _ rfl (by decide) rfl, p, q, r, eq_ok_of_toOption hp, built,
    hr, ?_, ?_⟩
  · rw [← hr]
    exact (replaced _ q built).symm
  · -- names are told apart by their text
    have texts (n : Name) : decide (n ∉ p.reads) = decide (n.text ∉ p.reads.map Name.text) := by
      refine decide_eq_decide.2 (not_congr ⟨List.mem_map_of_mem, fun mem => ?_⟩)
      obtain ⟨m, hm, same⟩ := List.mem_map.1 mem
      rwa [← Name.eq_of_text same]
    have fresh : (q.reads.filter (· ∉ p.reads)).map Name.text =
        (q.reads.map Name.text).filter (· ∉ p.reads.map Name.text) := by
      rw [List.filter_map]
      exact congrArg _ (List.filter_congr fun n _ => texts n)
    rw [reads, List.map_append, fresh, pReads, qReads]
    decide

end Draft

end BuildingControl.Erl
