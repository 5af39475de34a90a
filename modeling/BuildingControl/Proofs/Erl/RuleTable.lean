/-
  BuildingControl.Proofs.Erl.RuleTable

  What a checked table and a built program have to do with the text they were
  made from: the same names, boundaries and expressions in the same order.
-/
import BuildingControl.Erl.RuleTable
import BuildingControl.Proofs.Checking
import BuildingControl.Proofs.Erl.Name

namespace BuildingControl.Erl

/-! ## Programs -/

theorem Code.statements_of_ofStatements {statements : List Statement} {c : Code}
    (h : Code.ofStatements statements = .ok c) : c.statements = statements := by
  unfold Code.ofStatements at h
  split at h
  · cases h
    rfl
  · cases h

/-- The lines of a draft are there when none of them is a fault. -/
theorem Draft.statements?_eq_ok_iff {d : Draft} {statements : List Statement} :
    d.statements? = .ok statements ↔ AllOk d statements := by
  induction d generalizing statements with
  | nil => simp [Draft.statements?, eq_comm]
  | cons line d ih =>
    cases line with
    | error fault => cases statements <;> simp [Draft.statements?, AllOk]
    | ok s =>
      rw [Draft.statements?, map_eq_ok_iff]
      simp only [ih]
      constructor
      · rintro ⟨rest, hrest, rfl⟩
        exact congrArg (Except.ok s :: ·) hrest
      · intro h
        cases statements with
        | nil => cases h
        | cons s' rest =>
          obtain ⟨hs, hrest⟩ := List.cons.inj h
          cases hs
          exact ⟨rest, hrest, rfl⟩

/-- A built program has the lines of its draft. -/
theorem Draft.statements_of_build {d : Draft} {c : Code} (h : d.build = .ok c) :
    AllOk d c.statements := by
  unfold Draft.build at h
  split at h
  · next statements hs =>
    rw [Code.statements_of_ofStatements h]
    exact statements?_eq_ok_iff.1 hs
  · cases h

/-! ## Tables -/

/-- The action is the one that the text writes down. -/
def ActionText.Reads (text : ActionText) (a : Action) : Prop :=
  a.target.text = text.target ∧ a.value.text = Text.trim text.value

/-- The row is the one that the text writes down. -/
def RuleText.Reads (text : RuleText) (r : Rule) : Prop :=
  r.boundary.value = text.boundary ∧ r.action.target.text = text.target ∧
    r.action.value.text = Text.trim text.value

theorem Boundary.value_of_ofFloat? {what : String} {x : Float} {b : Boundary}
    (h : Boundary.ofFloat? what x = .ok b) : b.value = x := by
  unfold Boundary.ofFloat? at h
  split at h
  · cases h
    rfl
  · cases h

theorem RuleTable.ofRules_eq_ok_iff {subject : Name} {comparison : Comparison} {rules : List Rule}
    {otherwise : Action} {t : RuleTable} :
    RuleTable.ofRules subject comparison rules otherwise = .ok t ↔ t.subject = subject ∧
      t.comparison = comparison ∧ t.rules = rules ∧ t.otherwise = otherwise := by
  cases t with
  | mk subject' comparison' rules' otherwise' nonempty =>
    cases rules with
    | nil => simp [RuleTable.ofRules, nonempty]
    | cons r rules => simp [RuleTable.ofRules, eq_comm]

/-- Boundaries, targets and values that were read one list after another are the rows. -/
theorem RuleText.reads_zip {rules : List RuleText} {targets : List Name} {bounds : List Boundary}
    {values : List Expression}
    (ht : List.Forall₂ (fun r n => Name.ofText? r.target = .ok n) rules targets)
    (hb : List.Forall₂ (fun r b => Boundary.ofFloat? "rule boundary" r.boundary = .ok b) rules
      bounds)
    (hv : List.Forall₂ (fun r e => Expression.ofText? r.value = .ok e) rules values) :
    List.Forall₂ RuleText.Reads rules
      (List.zipWith Rule.mk bounds (List.zipWith Action.mk targets values)) := by
  induction rules generalizing targets bounds values with
  | nil =>
    cases ht
    cases hb
    cases hv
    exact .nil
  | cons r rules ih =>
    cases ht with | cons t ht =>
    cases hb with | cons b hb =>
    cases hv with | cons v hv =>
    exact .cons ⟨Boundary.value_of_ofFloat? b, Name.ofText?_eq_ok_iff.1 t,
      Expression.text_of_ofText? v⟩ (ih ht hb hv)

/-- A checked table has the subject, the comparison, the rows and the default of its text. -/
theorem TableText.reads_of_table {t : TableText} {table : RuleTable} (h : t.table = .ok table) :
    ∃ default, t.otherwise = some default ∧ table.subject.text = t.subject ∧
      table.comparison = t.comparison ∧ List.Forall₂ RuleText.Reads t.rules table.rules ∧
      default.Reads table.otherwise := by
  unfold TableText.table at h
  split at h
  · cases h
  split at h
  · cases h
  · next default ho =>
    simp only [bind_eq_ok_iff] at h
    obtain ⟨subject, hs, targets, ht, fallback, hf, bounds, hb, values, hv, value, hw, h⟩ := h
    obtain ⟨rfl, hc, hr, hd⟩ := RuleTable.ofRules_eq_ok_iff.1 h
    refine ⟨default, ho, Name.ofText?_eq_ok_iff.1 hs, hc, ?_, ?_⟩
    · rw [hr]
      exact RuleText.reads_zip (eachOk_eq_ok_iff.1 ht) (eachOk_eq_ok_iff.1 hb)
        (eachOk_eq_ok_iff.1 hv)
    · rw [hd]
      exact ⟨Name.ofText?_eq_ok_iff.1 hf, Expression.text_of_ofText? hw⟩

/-- A built table has the lines of the checked table. -/
theorem TableText.statements_of_build {t : TableText} {c : Code} (h : t.build = .ok c) :
    ∃ table, t.table = .ok table ∧ c.statements = table.statements := by
  obtain ⟨table, ht, hc⟩ := bind_eq_ok_iff.1 h
  exact ⟨table, ht, Code.statements_of_ofStatements hc⟩

end BuildingControl.Erl
