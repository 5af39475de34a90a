/-
  BuildingControl.Proofs.Erl.Statement

  Lines read as statements.  A condition of three words, a name, a comparison and
  a number, is read as a comparison; every other condition stays an expression.
  What the text does not show is the sign of a boundary that is zero, so a line is
  read as the statement that it was written from up to the boundary that its text
  spells (`readStatement?_ifThen`, `readStatement?_elseIf`).
-/
import BuildingControl.Proofs.Erl.Reading

namespace BuildingControl.Erl

/-! ## The reader -/

/-- The comparison that a text of three words states. -/
def comparison? (cs : List Char) : Option Condition := do
  let (subject, rest) ← splitFirst [' '] cs
  let (symbol, number) ← splitFirst [' '] rest
  let name ← (Name.ofText? (String.ofList subject)).toOption
  let comparison ← (Comparison.ofText? (String.ofList symbol)).toOption
  let value ← (Decimal.readChars number).toOption
  let boundary ← (Boundary.ofFloat? "condition boundary" value).toOption
  return .compare name comparison boundary

/-- The condition that a text states. -/
def Condition.read? (text : String) : Option Condition :=
  (comparison? text.toList).or ((Expression.ofText? text).toOption.map .expression)

/-- The statement that a line says. -/
def LineText.statement? : LineText → Option Statement
  | .assign target value => do
    let name ← (Name.ofText? target).toOption
    let expression ← (Expression.ofText? value).toOption
    return .assign name expression
  | .ifThen condition => (Condition.read? condition).map .ifThen
  | .elseIf condition => (Condition.read? condition).map .elseIf
  | .otherwise => some .otherwise
  | .endIf => some .endIf
  | .run subroutine => (Name.ofText? subroutine).toOption.map .run
  | .leave => some .leave

/-- The statement in a line of text. -/
def readStatement? (line : String) : Option Statement :=
  (readLine line.toList).bind LineText.statement?

/-- The statements in lines of text, if there is one in each. -/
def readStatements? : List String → Option (List Statement)
  | [] => some []
  | line :: rest => do
    let s ← readStatement? line
    let later ← readStatements? rest
    return s :: later

/-! ## Single lines -/

theorem Comparison.ofText?_symbol (c : Comparison) : Comparison.ofText? c.symbol = .ok c := by
  cases c <;> rfl

theorem blank_not_mem_symbol (c : Comparison) : ' ' ∉ c.symbol.toList := by
  cases c <;> decide

/-- The boundary that is read where another was written. -/
def Boundary.Spells (written read : Boundary) : Prop :=
  Decimal.read (Number.format written.value) = .ok read.value

theorem Boundary.ofFloat?_value (b : Boundary) (what : String) :
    Boundary.ofFloat? what b.value = .ok b := by
  rw [Boundary.ofFloat?, dif_pos b.finite]

/-- A written comparison is read as a comparison with the boundary that its number spells. -/
theorem Condition.read?_compare {subject : Name} {comparison : Comparison} {b c : Boundary}
    (h : b.Spells c) :
    Condition.read? (Condition.compare subject comparison b).render =
      some (.compare subject comparison c) := by
  have words : (Condition.compare subject comparison b).render.toList =
      subject.text.toList ++ ([' '] ++
        (comparison.symbol.toList ++ ([' '] ++ (Number.format b.value).toList))) := by
    simp [Condition.render, String.toList_append]
  have value : Decimal.readChars (Number.format b.value).toList = .ok c.value := h
  have stated : comparison? (Condition.compare subject comparison b).render.toList =
      some (.compare subject comparison c) := by
    rw [words, comparison?, splitFirst_append (blank_not_mem_name subject)]
    dsimp only [bind, Option.bind]
    rw [splitFirst_append (blank_not_mem_symbol comparison)]
    simp only [String.ofList_toList, value, Name.ofText?_eq_ok_iff.2 (rfl : subject.text = _),
      Comparison.ofText?_symbol, Boundary.ofFloat?_value, Except.toOption]
    rfl
  rw [Condition.read?, stated, Option.some_or]

theorem readStatement?_render (s : Statement) : readStatement? s.render = s.lineText.statement? := by
  rw [readStatement?, readLine_render, Option.bind_some]

theorem readStatement?_assign (target : Name) (value : Expression) :
    readStatement? (Statement.assign target value).render = some (.assign target value) := by
  rw [readStatement?_render, Statement.lineText, LineText.statement?,
    Name.ofText?_eq_ok_iff.2 (rfl : target.text = _), Expression.ofText?_text]
  rfl

theorem readStatement?_ifThen {subject : Name} {comparison : Comparison} {b c : Boundary}
    (h : b.Spells c) :
    readStatement? (Statement.ifThen (.compare subject comparison b)).render =
      some (.ifThen (.compare subject comparison c)) := by
  rw [readStatement?_render, Statement.lineText, LineText.statement?, Condition.read?_compare h]
  rfl

theorem readStatement?_elseIf {subject : Name} {comparison : Comparison} {b c : Boundary}
    (h : b.Spells c) :
    readStatement? (Statement.elseIf (.compare subject comparison b)).render =
      some (.elseIf (.compare subject comparison c)) := by
  rw [readStatement?_render, Statement.lineText, LineText.statement?, Condition.read?_compare h]
  rfl

/-! ## Lists of lines -/

/-- Lines are read one by one. -/
theorem readStatements?_of_forall₂ {written read : List Statement}
    (h : List.Forall₂ (fun s t => readStatement? s.render = some t) written read) :
    readStatements? (written.map Statement.render) = some read := by
  induction h with
  | nil => rfl
  | cons first _ ih =>
    rw [List.map_cons, readStatements?, first, ih]
    rfl

end BuildingControl.Erl
