/-
  BuildingControl.Proofs.Erl.Respelling

  Tables in other words.  Blanks at the ends of a value and the sign of a boundary that is
  zero are nothing to the program of a table: it has the same lines and the same names
  (`TableText.Respells.build`).
-/
import BuildingControl.Proofs.Erl.TableText
import BuildingControl.Proofs.Erl.Usage
import BuildingControl.Proofs.Number.Fields

namespace BuildingControl.Erl

/-! ## Tables that differ in blanks -/

/-- The row in other words: an equal boundary, and a value without the blanks at its ends. -/
structure RuleText.Respells (r s : RuleText) : Prop where
  boundary : (s.boundary == r.boundary) = true
  target : s.target = r.target
  value : s.value = Text.trim r.value

/-- The table in other words. -/
structure TableText.Respells (t u : TableText) : Prop where
  subject : u.subject = t.subject
  comparison : u.comparison = t.comparison
  rules : List.Forall₂ RuleText.Respells t.rules u.rules
  otherwise : u.otherwise = t.otherwise.map fun d => ⟨d.target, Text.trim d.value⟩

theorem expressionReason?_trim {text : String} (h : expressionReason? text = none) :
    expressionReason? (Text.trim text) = none := by
  have valid := isExpressionText_trim h
  simp only [isExpressionText, Bool.and_eq_true, Bool.not_eq_true', beq_iff_eq] at valid
  obtain ⟨⟨nonempty, trimmed⟩, field⟩ := valid
  rw [expressionReason?, fieldReason?, trimmed, nonempty, field]
  rfl

/-- A complete table is complete in other words. -/
theorem TableText.Respells.complete {t u : TableText} (h : t.Respells u) (complete : t.Complete) :
    u.Complete := by
  -- what is asked of every row, and of the default
  have row {P : RuleText → Prop} (each : ∀ r ∈ t.rules, ∀ s, r.Respells s → P s) :
      ∀ s ∈ u.rules, P s := by
    intro s hs
    obtain ⟨r, hr, same⟩ := exists_of_mem_forall₂ h.rules.flip hs
    exact each r hr s same
  have last {P : ActionText → Prop}
      (each : ∀ d ∈ t.otherwise, P ⟨d.target, Text.trim d.value⟩) : ∀ d ∈ u.otherwise, P d := by
    intro d hd
    rw [h.otherwise] at hd
    obtain ⟨e, he, rfl⟩ := Option.map_eq_some_iff.1 hd
    exact each e he
  have spoken (text : String) : Erl.words (Text.trim text).toList = Erl.words text.toList := by
    rw [Text.toList_trim, words_trimChars]
  constructor
  case rows =>
    intro none
    have rules := h.rules
    rw [none, List.forall₂_nil_right_iff] at rules
    exact complete.rows rules
  case otherwise =>
    rw [h.otherwise, Ne, Option.map_eq_none_iff]
    exact complete.otherwise
  case subject =>
    rw [h.subject]
    exact complete.subject
  case targets => exact row fun r hr s same => same.target ▸ complete.targets r hr
  case fallback => exact last complete.fallback
  case boundaries =>
    exact row fun r hr s same =>
      (Number.isFinite_eq_of_beq same.boundary).trans (complete.boundaries r hr)
  case values =>
    exact row fun r hr s same => same.value ▸ expressionReason?_trim (complete.values r hr)
  case value => exact last fun d hd => expressionReason?_trim (complete.value d hd)
  case words =>
    refine row fun r hr s same => ?_
    rw [same.value, spoken]
    exact complete.words r hr
  case word =>
    refine last fun d hd => ?_
    rw [spoken]
    exact complete.word d hd

/-- A table has the same lines in other words. -/
theorem TableText.Respells.lines {t u : TableText} (h : t.Respells u) : u.lines = t.lines := by
  have two (keyword : String) {r s : RuleText} (same : r.Respells s) :
      u.rowLines keyword s = t.rowLines keyword r := by
    rw [rowLines, rowLines, h.subject, h.comparison, Number.format_eq_of_beq same.boundary,
      same.target, same.value, Text.trim_trim]
  have rows (keyword : String) {rs ss : List RuleText}
      (same : List.Forall₂ RuleText.Respells rs ss) :
      ss.flatMap (u.rowLines keyword) = rs.flatMap (t.rowLines keyword) := by
    induction same with
    | nil => rfl
    | cons first _ ih => rw [List.flatMap_cons, List.flatMap_cons, two keyword first, ih]
  rw [TableText.lines, TableText.lines, rows "IF " (List.forall₂_take 1 h.rules),
    rows "ELSEIF " (List.forall₂_drop 1 h.rules), h.otherwise]
  cases t.otherwise with
  | none => rfl
  | some d => simp [Text.trim_trim]

/-! ## Names of a table -/

/-- What a row uses does not depend on its boundary. -/
theorem RuleTable.usage_statements {t u : RuleTable} (subject : t.subject = u.subject)
    (rows : List.Forall₂ (fun r s => r.action = s.action) t.rules u.rules)
    (otherwise : t.otherwise = u.otherwise) :
    t.statements.map Statement.usage = u.statements.map Statement.usage := by
  have condition (r s : Rule) : (t.condition r).names = (u.condition s).names := by
    rw [RuleTable.condition, RuleTable.condition, Condition.names, Condition.names, subject]
  have later {rs ss : List Rule} (h : List.Forall₂ (fun r s => r.action = s.action) rs ss) :
      (t.laterLines rs).map Statement.usage = (u.laterLines ss).map Statement.usage := by
    induction h with
    | nil => rfl
    | cons first _ ih =>
      rw [laterLines, laterLines, List.map_cons, List.map_cons, List.map_cons, List.map_cons, ih,
        first, Statement.usage, Statement.usage, condition]
  have branches {rs ss : List Rule} (h : List.Forall₂ (fun r s => r.action = s.action) rs ss) :
      (t.branchLines rs).map Statement.usage = (u.branchLines ss).map Statement.usage := by
    cases h with
    | nil => rfl
    | cons first rest =>
      rw [branchLines, branchLines, List.map_cons, List.map_cons, List.map_cons, List.map_cons,
        later rest, first, Statement.usage, Statement.usage, condition]
  rw [statements, statements, List.map_append, List.map_append, otherwise, branches rows]

theorem Action.eq_of_texts {a b : Action} (target : a.target.text = b.target.text)
    (value : a.value.text = b.value.text) : a = b := by
  obtain ⟨n, e⟩ := a
  obtain ⟨k, f⟩ := b
  obtain rfl : n = k := Name.eq_of_text target
  obtain rfl : e = f := Expression.eq_of_text value
  rfl

/-- Rows in other words are read as rows of the same actions. -/
theorem RuleText.actions_eq_of_respells {texts others : List RuleText} {rs ss : List Rule}
    (h : List.Forall₂ RuleText.Respells texts others)
    (reads : List.Forall₂ RuleText.Reads texts rs)
    (again : List.Forall₂ RuleText.Reads others ss) :
    List.Forall₂ (fun r s => r.action = s.action) rs ss := by
  induction h generalizing rs ss with
  | nil =>
    cases reads
    cases again
    exact .nil
  | cons first _ ih =>
    cases reads with | cons r reads =>
    cases again with | cons s again =>
    refine .cons (Action.eq_of_texts ?_ ?_) (ih reads again)
    · rw [r.2.1, s.2.1, first.target]
    · rw [r.2.2, s.2.2, first.value, Text.trim_trim]

/-- A table in other words is the same program, but for the sign of a boundary that is zero. -/
theorem TableText.Respells.build {t u : TableText} (h : t.Respells u) {c : Code}
    (built : t.build = .ok c) :
    ∃ d, u.build = .ok d ∧ d.lines = c.lines ∧ d.usage = c.usage := by
  have complete := TableText.complete_iff.2 (t.firstOf_build.exists_ok_iff.1 ⟨c, built⟩)
  obtain ⟨d, again⟩ := u.firstOf_build.exists_ok_iff.2
    (TableText.complete_iff.1 (h.complete complete))
  refine ⟨d, again, ?_, ?_⟩
  · rw [TableText.lines_of_build again, h.lines, TableText.lines_of_build built]
  obtain ⟨table, checked, statements⟩ := TableText.statements_of_build built
  obtain ⟨table', checked', statements'⟩ := TableText.statements_of_build again
  obtain ⟨default, otherwise, subject, -, rows, last⟩ := TableText.reads_of_table checked
  obtain ⟨default', otherwise', subject', -, rows', last'⟩ := TableText.reads_of_table checked'
  have same : table'.statements.map Statement.usage = table.statements.map Statement.usage := by
    rw [h.otherwise, otherwise, Option.map_some, Option.some.injEq] at otherwise'
    subst otherwise'
    refine (RuleTable.usage_statements (Name.eq_of_text ?_)
      (RuleText.actions_eq_of_respells h.rules rows rows') (Action.eq_of_texts ?_ ?_)).symm
    · rw [subject, subject', h.subject]
    · rw [last.1, last'.1]
    · rw [last.2, last'.2, Text.trim_trim]
  have usage := (examine_eq_ok_iff.1 c.examined).2.2
  have usage' := (examine_eq_ok_iff.1 d.examined).2.2
  rw [statements', usageOf_congr same, ← statements, usage] at usage'
  exact (Except.ok.inj usage').symm

end BuildingControl.Erl
