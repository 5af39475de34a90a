/-
  BuildingControl.Proofs.Erl.Legible

  Programs read back from their text.  No line of a program has a character that ends a
  line, so the text of a program falls apart into its lines again, and what a line says
  is read off by its keyword, whatever words and signs its expressions hold.  Two
  programs with the same lines are therefore the same but for the conditions, of which
  the text does not show how they were put together (`Code.readText_text`).
-/
import BuildingControl.Proofs.Erl.Reference

namespace BuildingControl.Erl

/-! ## Lines of a text -/

/-- Lists in a row fall apart at the elements between them. -/
theorem splitOnP_intercalate {α : Type} {p : α → Bool} {separator : α} (h : p separator = true)
    {xss : List (List α)} (nonempty : xss ≠ []) (free : ∀ xs ∈ xss, ∀ x ∈ xs, p x = false) :
    ([separator].intercalate xss).splitOnP p = xss := by
  induction xss with
  | nil => exact absurd rfl nonempty
  | cons xs rest ih =>
    obtain ⟨first, others⟩ := List.forall_mem_cons.1 free
    cases rest with
    | nil =>
      rw [List.intercalate_singleton]
      exact List.splitOnP_eq_singleton first
    | cons ys later =>
      rw [List.intercalate_cons_cons, List.append_assoc, List.singleton_append,
        List.splitOnP_append_cons_of_forall_mem first separator h,
        ih (List.cons_ne_nil ys later) others]

/-- No line of a program has a character that ends a line. -/
theorem Code.not_isLineEnd_of_mem_lines {c : Code} {line : List Char}
    (h : line ∈ c.lines.map String.toList) : ∀ x ∈ line, isLineEnd x = false := by
  intro x hx
  obtain ⟨text, hline, rfl⟩ := List.mem_map.1 h
  exact (isFieldChar_iff.1 ((c.isCell_of_mem_lines hline).field x hx)).1

theorem Code.lines_ne_nil (c : Code) : c.lines ≠ [] := by
  intro none
  exact (examine_eq_ok_iff.1 c.examined).1 (List.map_eq_nil_iff.1 none)

/-- The text of a program falls apart into its lines, at line feeds and wherever else a line
    might end. -/
theorem Code.splitOnP_text (c : Code) {p : Char → Bool} (feed : p '\n' = true)
    (ends : ∀ x, p x = true → isLineEnd x = true) :
    c.text.toList.splitOnP p = c.lines.map String.toList := by
  have chars : c.text.toList = ['\n'].intercalate (c.lines.map String.toList) :=
    String.toList_intercalate
  have nonempty : c.lines.map String.toList ≠ [] :=
    fun none => c.lines_ne_nil (List.map_eq_nil_iff.1 none)
  rw [chars]
  refine splitOnP_intercalate feed nonempty fun line hline x hx => ?_
  by_contra stops
  rw [Bool.not_eq_false] at stops
  have inside := Code.not_isLineEnd_of_mem_lines hline x hx
  rw [ends x stops] at inside
  cases inside

/-! ## What programs with the same lines share -/

/-- The assignment of a line, if it is one. -/
def Statement.assignment? : Statement → Option (Name × Expression)
  | .assign target value => some (target, value)
  | _ => none

/-- Programs that are the same but for how their conditions were put together. -/
structure Code.Agrees (c d : Code) : Prop where
  /-- Each line is of the same kind, with the same texts. -/
  lines : c.statements.map Statement.lineText = d.statements.map Statement.lineText
  /-- Each line is the same when conditions are taken as text. -/
  statements : c.statements.map Statement.spelledOut = d.statements.map Statement.spelledOut
  /-- After each line the same branches are open. -/
  blocks : ∀ count, runBlocks 1 [] (c.statements.take count) =
    runBlocks 1 [] (d.statements.take count)
  assignments : c.statements.filterMap Statement.assignment? =
    d.statements.filterMap Statement.assignment?
  calls : c.statements.filterMap Statement.subroutine? =
    d.statements.filterMap Statement.subroutine?

theorem Condition.spelledOut_eq_of_render_eq {c d : Condition} (h : c.render = d.render) :
    c.spelledOut = d.spelledOut :=
  congrArg Condition.expression (Expression.eq_of_text h)

/-- Lines that say the same differ in no more than the making of a condition. -/
theorem Statement.spelledOut_eq_of_lineText {s t : Statement} (h : s.lineText = t.lineText) :
    s.spelledOut = t.spelledOut := by
  -- lines of different kinds say different things
  cases s <;> cases t <;> try cases h
  case assign.assign target value target' value' =>
    obtain ⟨names, values⟩ := LineText.assign.inj h
    rw [Name.eq_of_text names, Expression.eq_of_text values]
  case ifThen.ifThen c d =>
    exact congrArg Statement.ifThen
      (Condition.spelledOut_eq_of_render_eq (LineText.ifThen.inj h))
  case elseIf.elseIf c d =>
    exact congrArg Statement.elseIf
      (Condition.spelledOut_eq_of_render_eq (LineText.elseIf.inj h))
  case run.run n k => rw [Name.eq_of_text (LineText.run.inj h)]
  all_goals rfl

theorem Statement.assignment?_spelledOut (s : Statement) :
    s.spelledOut.assignment? = s.assignment? := by
  cases s <;> rfl

theorem Statement.subroutine?_spelledOut (s : Statement) :
    s.spelledOut.subroutine? = s.subroutine? := by
  cases s <;> rfl

/-- What does not depend on the making of conditions is the same in both programs. -/
theorem filterMap_eq_of_spelledOut {α : Type} {f : Statement → Option α}
    (blind : ∀ s : Statement, f s.spelledOut = f s) {ss ts : List Statement}
    (h : ss.map Statement.spelledOut = ts.map Statement.spelledOut) :
    ss.filterMap f = ts.filterMap f := by
  have through (us : List Statement) : (us.map Statement.spelledOut).filterMap f =
      us.filterMap f := by
    rw [List.filterMap_map]
    exact congrArg (fun g => us.filterMap g) (funext blind)
  rw [← through ss, h, through ts]

/-- The statements of lines, as far as the text shows them. -/
theorem map_eq_of_lines {α : Type} {f : Statement → α}
    (shown : ∀ s t : Statement, s.lineText = t.lineText → f s = f t) {ss ts : List Statement}
    (h : ss.map Statement.render = ts.map Statement.render) : ss.map f = ts.map f := by
  induction ss generalizing ts with
  | nil =>
    cases ts with
    | nil => rfl
    | cons t ts => cases h
  | cons s ss ih =>
    cases ts with
    | nil => cases h
    | cons t ts =>
      obtain ⟨first, rest⟩ := List.cons.inj h
      rw [List.map_cons, List.map_cons, shown s t (lineText_eq_of_render_eq first), ih rest]

/-- Programs with the same lines agree. -/
theorem Code.agrees_of_lines {c d : Code} (h : c.lines = d.lines) : c.Agrees d := by
  have statements : c.statements.map Statement.spelledOut =
      d.statements.map Statement.spelledOut :=
    map_eq_of_lines (fun _ _ => Statement.spelledOut_eq_of_lineText) h
  refine ⟨map_eq_of_lines (fun _ _ => id) h, statements, fun count => ?_, ?_, ?_⟩
  · refine runBlocks_eq_of_lines ?_ 1 []
    rw [List.map_take, List.map_take]
    exact congrArg (List.take count) h
  · exact filterMap_eq_of_spelledOut Statement.assignment?_spelledOut statements
  · exact filterMap_eq_of_spelledOut Statement.subroutine?_spelledOut statements

/-! ## Programs read from text -/

/-- What the lines of a text say. -/
def readText (text : String) : List (Option LineText) :=
  (text.toList.splitOn '\n').map readLine

/-- Programs are read back from their text.  Each line says what its statement says: its kind, and
    the target, the expression, the condition or the subroutine.  Programs with the same lines are
    the same but for the making of conditions, with the same branches, assignments and calls.  The
    text falls apart into the lines, so the program is read from its text as from its lines. -/
theorem Code.readText_text (c : Code) :
    c.lines.map (fun line => readLine line.toList) =
      c.statements.map (fun s => some s.lineText) ∧
    (∀ d : Code, d.lines = c.lines → d.Agrees c) ∧
    (c.text.toList.splitOn '\n').map String.ofList = c.lines ∧
    (c.text.toList.splitOnP isLineEnd).map String.ofList = c.lines ∧
    readText c.text = c.statements.map (fun s => some s.lineText) := by
  have lines : c.lines.map (fun line => readLine line.toList) =
      c.statements.map (fun s => some s.lineText) := by
    rw [Code.lines, List.map_map]
    exact List.map_congr_left fun s _ => readLine_render s
  have feeds : c.text.toList.splitOn '\n' = c.lines.map String.toList := by
    rw [List.splitOn_eq_splitOnP]
    refine c.splitOnP_text (by decide) fun x feed => ?_
    rw [beq_iff_eq.1 feed]
    decide
  have ends : c.text.toList.splitOnP isLineEnd = c.lines.map String.toList :=
    c.splitOnP_text (by decide) fun _ => id
  have packed : (c.lines.map String.toList).map String.ofList = c.lines := by
    rw [List.map_map]
    exact List.map_id'' (fun line => String.ofList_toList) c.lines
  refine ⟨lines, fun d h => Code.agrees_of_lines h, ?_, ?_, ?_⟩
  · rw [feeds, packed]
  · rw [ends, packed]
  · rw [readText, feeds, List.map_map]
    exact lines

/-- An assignment whose right-hand side looks like other lines, under a branch that was put
    together in two ways. -/
theorem Code.readText_lookalike : ∃ c d : Code,
    c.lines = ["IF Load <= 6.0", "SET Fan = RUN = SET Fan = ENDIF", "ENDIF"] ∧
    d.lines = c.lines ∧ d.Agrees c ∧
    readText c.text = [some (.ifThen "Load <= 6.0"),
      some (.assign "Fan" "RUN = SET Fan = ENDIF"), some .endIf] := by
  have comparison : ((Draft.ifCompare "Load" .le 6.0 ++ Draft.set "Fan" "RUN = SET Fan = ENDIF" ++
      Draft.push .endIf).build.toOption.map fun c => (c.lines, c.statements.map Statement.lineText)) =
        some (["IF Load <= 6.0", "SET Fan = RUN = SET Fan = ENDIF", "ENDIF"],
          [.ifThen "Load <= 6.0", .assign "Fan" "RUN = SET Fan = ENDIF", .endIf]) := by
    decide +kernel
  have expression : ((Draft.test .ifThen "Load <= 6.0" ++ Draft.set "Fan" "RUN = SET Fan = ENDIF" ++
      Draft.push .endIf).build.toOption.map Code.lines) =
        some ["IF Load <= 6.0", "SET Fan = RUN = SET Fan = ENDIF", "ENDIF"] := by
    decide +kernel
  obtain ⟨c, -, hc⟩ := Option.map_eq_some_iff.1 comparison
  obtain ⟨d, -, other⟩ := Option.map_eq_some_iff.1 expression
  obtain ⟨lines, texts⟩ := Prod.mk.inj hc
  have same : d.lines = c.lines := other.trans lines.symm
  obtain ⟨-, agrees, -, -, read⟩ := c.readText_text
  refine ⟨c, d, lines, same, agrees d same, ?_⟩
  have each : c.statements.map (fun s => some s.lineText) =
      (c.statements.map Statement.lineText).map some := by
    rw [List.map_map]
    rfl
  rw [read, each, texts]
  rfl

end BuildingControl.Erl
