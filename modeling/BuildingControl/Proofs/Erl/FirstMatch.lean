/-
  BuildingControl.Proofs.Erl.FirstMatch

  What the text of a threshold table means.  The lines of a compiled table are
  read back as statements and run: they perform one action and nothing else, that
  of the first row whose comparison holds, or the default (`run_compiled`).  Rows
  may come in any order and boundaries may repeat; the earliest row wins.

  Reading a boundary back may change the sign of zero.  Equal boundaries select
  the same row (`RuleTable.Spelled.choose_eq`), so the table that is read back chooses
  as the table that was written.
-/
import BuildingControl.Proofs.Erl.RuleTable
import BuildingControl.Proofs.Erl.Statement
import BuildingControl.Proofs.Model.Execution
import BuildingControl.Proofs.Number.Order

namespace BuildingControl.Erl

/-! ## The action of a value -/

/-- The action that a table has for a value: that of the row with the least index whose comparison
    holds, and the default where none does. -/
inductive RuleTable.Selects (t : RuleTable) (x : Float) : Action → Prop
  | row (i : Nat) (inside : i < t.rules.length)
      (applies : t.comparison.holds x t.rules[i].boundary.value = true)
      (first : ∀ j (earlier : j < i), t.comparison.holds x t.rules[j].boundary.value = false) :
      Selects t x t.rules[i].action
  | otherwise (none : ∀ r ∈ t.rules, t.comparison.holds x r.boundary.value = false) :
      Selects t x t.otherwise

/-- A table has one action for a value. -/
theorem RuleTable.Selects.eq {t : RuleTable} {x : Float} {a b : Action} (ha : t.Selects x a)
    (hb : t.Selects x b) : a = b := by
  cases ha with
  | row i inside applies first =>
    cases hb with
    | row j inside' applies' first' =>
      rcases Nat.lt_trichotomy i j with before | rfl | after
      · rw [first' i before] at applies
        cases applies
      · rfl
      · rw [first j after] at applies'
        cases applies'
    | otherwise none =>
      rw [none _ (List.getElem_mem inside)] at applies
      cases applies
  | otherwise none =>
    cases hb with
    | row j inside applies first =>
      rw [none _ (List.getElem_mem inside)] at applies
      cases applies
    | otherwise => rfl

/-- The chosen action is the one that the table has for the value. -/
theorem RuleTable.selects_choose {t : RuleTable} {x : Float} {holds : Condition → Bool}
    (h : ∀ r, holds (t.condition r) = t.comparison.holds x r.boundary.value) :
    t.Selects x (t.choose holds) := by
  unfold choose chooseFrom
  simp only [h]
  cases found : t.rules.find? fun r => t.comparison.holds x r.boundary.value with
  | none =>
    refine .otherwise fun r hr => ?_
    simpa using List.find?_eq_none.1 found r hr
  | some r =>
    obtain ⟨applies, i, inside, rfl, earlier⟩ := List.find?_eq_some_iff_getElem.1 found
    exact .row i inside applies fun j hj => by simpa using earlier j hj

/-! ## Equal boundaries -/

/-- Equal numbers take each other's place in every comparison. -/
theorem Comparison.holds_of_beq (c : Comparison) {y z : Float} (h : (y == z) = true) (x : Float) :
    c.holds x y = c.holds x z := by
  obtain ⟨right, left⟩ := Number.compare_eq_of_beq (u := y.toModel.unpack) h x.toModel.unpack
  have le : x ≤ y ↔ x ≤ z := by
    rw [Number.le_iff_unpack, Number.le_iff_unpack, Float.Model.UnpackedFloat.le, right]
    rfl
  have ge : y ≤ x ↔ z ≤ x := by
    rw [Number.le_iff_unpack, Number.le_iff_unpack, Float.Model.UnpackedFloat.le, left]
    rfl
  have lt : x < y ↔ x < z := by
    rw [Number.lt_iff_unpack, Number.lt_iff_unpack, Float.Model.UnpackedFloat.lt, right]
    rfl
  have gt : y < x ↔ z < x := by
    rw [Number.lt_iff_unpack, Number.lt_iff_unpack, Float.Model.UnpackedFloat.lt, left]
    rfl
  have eq : (x == y) = (x == z) := by
    rw [Number.beq_eq_compare, Number.beq_eq_compare, right]
  cases c <;> simp only [holds, le, ge, lt, gt, bne, eq]

/-! ## Tables read back -/

/-- A row with the boundary that the number of another row spells, and the same action. -/
structure Rule.Spelled (written read : Rule) : Prop where
  spells : written.boundary.Spells read.boundary
  equal : (read.boundary.value == written.boundary.value) = true
  action : read.action = written.action

/-- A number that reads back as an equal number is the boundary of a row. -/
theorem Rule.exists_spelled {r : Rule}
    (h : ∃ y, Decimal.read (Number.format r.boundary.value) = .ok y ∧
      (y == r.boundary.value) = true) : ∃ r', r.Spelled r' := by
  obtain ⟨y, reads, equal⟩ := h
  have finite : y.isFinite = true := (Number.isFinite_eq_of_beq equal).trans r.boundary.finite
  exact ⟨⟨⟨y, finite⟩, r.action⟩, reads, equal, rfl⟩

theorem exists_forall₂_spelled {rows : List Rule}
    (h : ∀ r ∈ rows, ∃ y, Decimal.read (Number.format r.boundary.value) = .ok y ∧
      (y == r.boundary.value) = true) : ∃ rows', List.Forall₂ Rule.Spelled rows rows' := by
  induction rows with
  | nil => exact ⟨[], .nil⟩
  | cons r rows ih =>
    obtain ⟨first, later⟩ := List.forall_mem_cons.1 h
    obtain ⟨r', hr⟩ := Rule.exists_spelled first
    obtain ⟨rows', hrows⟩ := ih later
    exact ⟨r' :: rows', .cons hr hrows⟩

/-- A table with the rows that the numbers of another one spell, the rest the same. -/
structure RuleTable.Spelled (written read : RuleTable) : Prop where
  subject : read.subject = written.subject
  comparison : read.comparison = written.comparison
  rules : List.Forall₂ Rule.Spelled written.rules read.rules
  otherwise : read.otherwise = written.otherwise

theorem RuleTable.exists_spelled {t : RuleTable}
    (h : ∀ r ∈ t.rules, ∃ y, Decimal.read (Number.format r.boundary.value) = .ok y ∧
      (y == r.boundary.value) = true) : ∃ t', t.Spelled t' := by
  obtain ⟨rows, spelled⟩ := exists_forall₂_spelled h
  have nonempty : rows ≠ [] := by
    rintro rfl
    exact t.nonempty (List.forall₂_nil_right_iff.1 spelled)
  exact ⟨⟨t.subject, t.comparison, rows, t.otherwise, nonempty⟩, rfl, rfl, spelled, rfl⟩

namespace RuleTable.Spelled

variable {t t' : RuleTable} (h : t.Spelled t')

include h

theorem read_ifThen {r r' : Rule} (row : r.Spelled r') :
    readStatement? (Statement.ifThen (t.condition r)).render =
      some (.ifThen (t'.condition r')) := by
  rw [condition, condition, h.subject, h.comparison]
  exact readStatement?_ifThen row.spells

theorem read_elseIf {r r' : Rule} (row : r.Spelled r') :
    readStatement? (Statement.elseIf (t.condition r)).render =
      some (.elseIf (t'.condition r')) := by
  rw [condition, condition, h.subject, h.comparison]
  exact readStatement?_elseIf row.spells

theorem read_laterLines {rows rows' : List Rule} (spelled : List.Forall₂ Rule.Spelled rows rows') :
    List.Forall₂ (fun s s' => readStatement? s.render = some s') (t.laterLines rows)
      (t'.laterLines rows') := by
  induction spelled with
  | nil => exact .nil
  | cons row _ ih =>
    rw [laterLines, laterLines, row.action]
    exact .cons (h.read_elseIf row) (.cons (readStatement?_assign _ _) ih)

theorem read_branchLines {rows rows' : List Rule} (spelled : List.Forall₂ Rule.Spelled rows rows') :
    List.Forall₂ (fun s s' => readStatement? s.render = some s') (t.branchLines rows)
      (t'.branchLines rows') := by
  cases spelled with
  | nil => exact .nil
  | cons row later =>
    rw [branchLines, branchLines, row.action]
    exact .cons (h.read_ifThen row) (.cons (readStatement?_assign _ _) (h.read_laterLines later))

/-- The lines of a table are read as the table with the boundaries that its numbers spell. -/
theorem read_statements :
    readStatements? (t.statements.map Statement.render) = some t'.statements := by
  refine readStatements?_of_forall₂ (List.rel_append (h.read_branchLines h.rules) ?_)
  rw [h.otherwise]
  exact .cons rfl (.cons (readStatement?_assign _ _) (.cons rfl .nil))

/-- Both tables choose the same action where conditions compare one number. -/
theorem choose_eq {x : Float} {holds : Condition → Bool}
    (compares : ∀ c b, holds (.compare t.subject c b) = c.holds x b.value) :
    t'.choose holds = t.choose holds := by
  have same {r r' : Rule} (row : r.Spelled r') :
      holds (t'.condition r') = holds (t.condition r) := by
    rw [condition, condition, h.subject, h.comparison, compares, compares]
    exact t.comparison.holds_of_beq row.equal x
  have rows {rs rs' : List Rule} (spelled : List.Forall₂ Rule.Spelled rs rs') :
      t'.chooseFrom holds rs' = t.chooseFrom holds rs := by
    induction spelled with
    | nil => exact h.otherwise
    | cons row _ ih => rw [chooseFrom_cons, chooseFrom_cons, same row, ih, row.action]
  exact rows h.rules

end RuleTable.Spelled

/-! ## Running what was read -/

/-- The machine that keeps the actions it performs, in order, beside its state. -/
def Machine.recording {S : Type} (m : Machine S) : Machine (S × List Action) where
  assign target value s := (m.assign target value s.1, s.2 ++ [⟨target, value⟩])
  holds c s := m.holds c s.1

/-- The lines of a compiled table are read back as statements that perform one action, the one that
    the table has for the value of the comparison variable.  All that is asked of the numbers in the
    text is that each reads back as an equal number; expressions may come to anything. -/
theorem RuleTable.run_compiled {t : RuleTable} {c : Code} (compiled : t.compile = .ok c)
    (reads : ∀ r ∈ t.rules, ∃ y, Decimal.read (Number.format r.boundary.value) = .ok y ∧
      (y == r.boundary.value) = true)
    (value : Expression → Store Float → Float) (test : Expression → Store Float → Bool)
    (call : Name → Store Float × List Action → Option (Store Float × List Action))
    (σ : Store Float) :
    ∃ lines, readStatements? c.lines = some lines ∧
      ∃ a, t.Selects (σ t.subject.key) a ∧
        (Evaluation.machine ⟨value, Comparison.holds, test⟩).recording.run call [] lines (σ, []) =
          some (Function.update σ a.target.key (value a.value σ), [a]) := by
  obtain ⟨t', spelled⟩ := exists_spelled reads
  have lines : c.lines = t.statements.map Statement.render := by
    rw [Code.lines, Code.statements_of_ofStatements compiled]
  let m := (Evaluation.machine ⟨value, Comparison.holds, test⟩).recording
  have compares (comparison : Comparison) (b : Boundary) :
      m.holds (.compare t.subject comparison b) (σ, []) =
        comparison.holds (σ t.subject.key) b.value := rfl
  have reached : active [] = true := rfl
  have ran := m.run_table call t' reached [] (σ, [])
  rw [List.append_nil, spelled.choose_eq compares] at ran
  exact ⟨t'.statements, by rw [lines, spelled.read_statements], t.choose (m.holds · (σ, [])),
    selects_choose fun r => compares t.comparison r.boundary, ran⟩

/-- Rows out of order: the second and the third both apply to 27. -/
def unsorted : RuleTable where
  subject := ⟨"Tout", by decide⟩
  comparison := .le
  rules :=
    [⟨⟨26.0, by decide +kernel⟩, ⟨⟨"C", by decide⟩, ⟨"TC_25", by decide⟩⟩⟩,
     ⟨⟨30.0, by decide +kernel⟩, ⟨⟨"C", by decide⟩, ⟨"TC_29", by decide⟩⟩⟩,
     ⟨⟨28.0, by decide +kernel⟩, ⟨⟨"C", by decide⟩, ⟨"TC_27", by decide⟩⟩⟩]
  otherwise := ⟨⟨"C", by decide⟩, ⟨"TC_85", by decide⟩⟩
  nonempty := List.cons_ne_nil _ _

/-- The second row wins, although the third is nearer. -/
theorem run_compiled_unsorted : ∃ c lines τ, unsorted.compile = .ok c ∧
    readStatements? c.lines = some lines ∧
    (Evaluation.machine ⟨fun _ _ => 0, Comparison.holds, fun _ _ => false⟩).recording.run
      (fun _ => some) [] lines (fun _ => 27.0, []) =
        some (τ, [⟨⟨"C", by decide⟩, ⟨"TC_29", by decide⟩⟩]) := by
  have compiles : unsorted.compile.isOk = true := by decide +kernel
  obtain ⟨c, compiled⟩ := exists_of_isOk compiles
  have numbers : ∀ x ∈ unsorted.rules.map fun r => r.boundary.value,
      ((Decimal.read (Number.format x)).toOption.any fun y => y == x) = true := by decide +kernel
  have reads : ∀ r ∈ unsorted.rules, ∃ y,
      Decimal.read (Number.format r.boundary.value) = .ok y ∧ (y == r.boundary.value) = true := by
    intro r hr
    obtain ⟨y, read, equal⟩ := (Option.any_eq_true _ _).1 (numbers _ (List.mem_map_of_mem hr))
    exact ⟨y, eq_ok_of_toOption read, equal⟩
  obtain ⟨lines, readable, a, selected, ran⟩ := RuleTable.run_compiled compiled reads
    (fun _ _ => 0) (fun _ _ => false) (fun _ => some) fun _ => 27.0
  have fails : unsorted.comparison.holds 27.0 26.0 = false := by decide +kernel
  have second : unsorted.Selects 27.0 ⟨⟨"C", by decide⟩, ⟨"TC_29", by decide⟩⟩ :=
    .row 1 (by decide) (by decide +kernel) fun
      | 0, _ => fails
  rw [selected.eq second] at ran
  exact ⟨c, lines, _, compiled, readable, ran⟩

end BuildingControl.Erl
