/-
  BuildingControl.Proofs.Erl.TableText

  What becomes of a table in writing.  The checks are made in a fixed order, and
  the first that does not pass is reported (`TableText.faults`); a table that
  passes them all becomes two lines for each row and three for the default.  The
  words of an expression are looked at last, when the table is checked already.
-/
import BuildingControl.Proofs.Erl.Grammar
import BuildingControl.Proofs.Erl.RuleTable
import BuildingControl.Proofs.Erl.Sanitize
import BuildingControl.Proofs.Erl.Usage
import BuildingControl.Proofs.Erl.Word

namespace BuildingControl.Erl

/-! ## Faults of a table in writing -/

/-- What keeps a text from being a name. -/
def nameFaults (text : String) : List Fault :=
  (nameReason? text).toList.map (.invalidName text)

/-- What keeps a number from being a boundary. -/
def boundaryFaults (value : Float) : List Fault :=
  if value.isFinite then [] else [.nonFinite ⟨"rule boundary", value⟩]

/-- What keeps a text from being an expression. -/
def expressionFaults (text : String) : List Fault :=
  (expressionReason? text).toList.map (.invalidExpression text)

/-- Whether a word starts with an underscore. -/
def isUnderscored (word : String) : Bool :=
  word.toList.head? == some '_'

/-- What keeps the words of an expression from being names: an underscore in front. -/
def wordFaults (text : String) : List Fault :=
  (words text.toList).flatMap fun w => if isUnderscored w then [.invalidName w .start] else []

/-- What keeps a table with this default from being checked: names, boundaries, then
    expressions. -/
def TableText.checkFaults (t : TableText) (default : ActionText) : List Fault :=
  nameFaults t.subject ++
  (t.rules.flatMap (fun r => nameFaults r.target) ++
  (nameFaults default.target ++
  (t.rules.flatMap (fun r => boundaryFaults r.boundary) ++
  (t.rules.flatMap (fun r => expressionFaults r.value) ++ expressionFaults default.value))))

/-- Everything that keeps a table from becoming a program, in the order in which it is looked
    for. -/
def TableText.faults (t : TableText) : List Fault :=
  (if t.rules.isEmpty then [.noRules] else []) ++
  match t.otherwise with
  | none => [.noDefault]
  | some default =>
    t.checkFaults default ++
    (t.rules.flatMap (fun r => wordFaults r.value) ++ wordFaults default.value)

theorem firstOf_name (text : String) : FirstOf (nameFaults text) (Name.ofText? text) := by
  unfold Name.ofText?
  split
  · next valid =>
    have none : nameFaults text = [] := by simp [nameFaults, valid]
    rw [none]
    exact firstOf_ok _
  · next reason invalid =>
    have one : nameFaults text = [.invalidName text reason] := by simp [nameFaults, invalid]
    rw [one]
    exact firstOf_error _ []

theorem firstOf_boundary (value : Float) :
    FirstOf (boundaryFaults value) (Boundary.ofFloat? "rule boundary" value) := by
  unfold boundaryFaults Boundary.ofFloat?
  split
  · exact firstOf_ok _
  · exact firstOf_error _ []

theorem firstOf_expression (text : String) :
    FirstOf (expressionFaults text) (Expression.ofText? text) := by
  unfold Expression.ofText?
  split
  · next valid =>
    have none : expressionFaults text = [] := by simp [expressionFaults, valid]
    rw [none]
    exact firstOf_ok _
  · next reason invalid =>
    have one : expressionFaults text = [.invalidExpression text reason] := by
      simp [expressionFaults, invalid]
    rw [one]
    exact firstOf_error _ []

/-! ## Words that are no names -/

/-- A word starts with a letter or an underscore and goes on with name characters. -/
theorem shape_of_mem_words {cs : List Char} {w : String} (h : w ∈ words cs) :
    ∃ c ds, w.toList = c :: ds ∧ startsName c = true ∧ ds.all isNameChar = true := by
  have cut : Tokenized cs (tokens cs) := tokenized_iff.2 rfl
  rw [words] at h
  generalize tokens cs = ts at cut h
  induction cut with
  | nil => cases h
  | number _ _ _ _ ih => exact ih h
  | function _ _ _ ih => exact ih h
  | name starts all _ _ ih =>
    rcases List.mem_cons.1 h with rfl | h
    · exact ⟨_, _, String.toList_ofList, starts, List.all_eq_true.2 all⟩
    · exact ih h
  | other _ _ _ _ ih => exact ih h

/-- No reserved or built-in word starts with an underscore. -/
theorem not_isUnderscored_of_known {w : String} (h : (isReserved w || isBuiltin w) = true) :
    isUnderscored w = false := by
  have known : ∀ k ∈ reservedWords ++ builtinNames, isUnderscored k = false := by decide
  obtain ⟨k, hk, same⟩ : ∃ k ∈ reservedWords ++ builtinNames,
      Text.asciiUpper k = Text.asciiUpper w := by
    rcases Bool.or_eq_true_iff.1 h with reserved | builtin
    · obtain ⟨k, hk, same⟩ := List.any_eq_true.1 reserved
      have capital : ∀ k ∈ reservedWords, Text.asciiUpper k = k := by decide
      exact ⟨k, List.mem_append_left _ hk, (capital k hk).trans (beq_iff_eq.1 same)⟩
    · obtain ⟨k, hk, same⟩ := List.any_eq_true.1 builtin
      exact ⟨k, List.mem_append_right _ hk, Text.sameLetters_iff.1 same⟩
  -- the case of letters does not make an underscore
  have marks := Text.map_eq_of_asciiUpper (f := (· == '_')) (by decide) same
  have first := congrArg List.head? marks
  rw [List.head?_map, List.head?_map] at first
  have front := known k hk
  unfold isUnderscored at front ⊢
  cases hw : w.toList.head? with
  | none => rfl
  | some c =>
    cases hk : k.toList.head? with
    | none => simp [hw, hk] at first
    | some d => simp_all

/-- A word that is not reserved is a name, unless it starts with an underscore. -/
theorem nameFaults_of_mem_words {cs : List Char} {w : String} (h : w ∈ words cs)
    (free : isReserved w = false) :
    nameFaults w = if isUnderscored w then [.invalidName w .start] else [] := by
  obtain ⟨c, ds, text, starts, rest⟩ := shape_of_mem_words h
  have front : isUnderscored w = (c == '_') := by simp [isUnderscored, text]
  by_cases alpha : c.isAlpha = true
  · have letter : (c == '_') = false := by
      rw [beq_eq_false_iff_ne]
      rintro rfl
      cases alpha
    have word : isWord w.toList = true := by rw [text, isWord, alpha, rest, Bool.true_and]
    have valid : nameReason? w = none := nameReason?_eq_none_iff.2 ⟨word, free⟩
    simp [nameFaults, valid, front, letter]
  · have mark : (c == '_') = true := by simpa [startsName, alpha] using starts
    have invalid : nameReason? w = some .start := by simp [nameReason?, text, alpha]
    simp [nameFaults, invalid, front, mark]

/-- Looking for names fails at the first word with an underscore in front. -/
theorem firstOf_namesAmong (cs : List Char) :
    FirstOf ((words cs).flatMap fun w => if isUnderscored w then [.invalidName w .start] else [])
      (namesAmong (words cs)) := by
  refine FirstOf.foldlM (fun found w hw => ?_) []
  by_cases known : (isReserved w || isBuiltin w) = true
  · rw [if_pos known, not_isUnderscored_of_known known]
    exact firstOf_ok found
  · have free : isReserved w = false := by simp_all
    rw [if_neg known, ← nameFaults_of_mem_words hw free]
    exact (firstOf_name w).map _

/-! ## The lines of a table -/

/-- What keeps the words of a condition from being names. -/
def Condition.wordFaults : Condition → List Fault
  | .compare _ _ _ => []
  | .expression e => Erl.wordFaults e.text

/-- What keeps the words of a line from being names. -/
def Statement.wordFaults : Statement → List Fault
  | .assign _ value => Erl.wordFaults value.text
  | .ifThen condition => condition.wordFaults
  | .elseIf condition => condition.wordFaults
  | _ => []

/-- An expression fails at its first word with an underscore in front. -/
theorem Expression.firstOf_names (e : Expression) : FirstOf (wordFaults e.text) e.names := by
  rw [names_eq]
  exact firstOf_namesAmong e.text.toList

theorem Condition.firstOf_names (c : Condition) : FirstOf c.wordFaults c.names := by
  cases c with
  | compare subject comparison boundary => exact firstOf_ok _
  | expression e => exact e.firstOf_names

theorem Statement.firstOf_usage (s : Statement) : FirstOf s.wordFaults s.usage := by
  cases s with
  | assign target value => exact value.firstOf_names.map _
  | ifThen c => exact c.firstOf_names.map _
  | elseIf c => exact c.firstOf_names.map _
  | otherwise => exact firstOf_ok _
  | endIf => exact firstOf_ok _
  | run subroutine => exact firstOf_ok _
  | leave => exact firstOf_ok _

/-- Lines whose branches match become a program unless one of their words is no name. -/
theorem Code.firstOf_ofStatements {ss : List Statement} (nonempty : ss ≠ [])
    (blocks : checkBlocks ss = .ok ()) :
    FirstOf (ss.flatMap Statement.wordFaults) (Code.ofStatements ss) := by
  have usage : FirstOf (ss.flatMap Statement.wordFaults) (usageOf ss) := by
    rw [usageOf_eq]
    exact (FirstOf.eachOk fun s _ => s.firstOf_usage).map _
  intro fault
  rw [Code.ofStatements_eq_error_iff, examine_of_ne_nil nonempty, blocks, ← usage fault,
    checkLines_of_checkBlocks blocks]
  cases usageOf ss with
  | error other => rfl
  | ok u => exact ⟨nofun, nofun⟩

/-- The branches of a table match. -/
theorem RuleTable.checkBlocks_statements (t : RuleTable) : checkBlocks t.statements = .ok () := by
  have action (a : Action) : IsBlock [a.statement] := .simple (.assign a.target a.value) .empty
  obtain ⟨first, later, rows⟩ := List.exists_cons_of_ne_nil t.nonempty
  have alternatives (rs : List Rule) : t.laterLines rs =
      (rs.map fun r => (t.condition r, [r.action.statement])).flatMap elseIfLines := by
    induction rs with
    | nil => rfl
    | cons r rs ih =>
      rw [RuleTable.laterLines, ih]
      rfl
  have lines : t.statements = .ifThen (t.condition first) ::
      Erl.branchLines [first.action.statement]
        (later.map fun r => (t.condition r, [r.action.statement]))
        (some [t.otherwise.statement]) [] := by
    simp [RuleTable.statements, rows, RuleTable.branchLines, alternatives, Erl.branchLines,
      elseLines]
  have block : IsBlock t.statements := by
    rw [lines]
    refine .branch (action _) (fun a ha => ?_) (fun b hb => ?_) .empty
    · obtain ⟨r, -, rfl⟩ := List.mem_map.1 ha
      exact action r.action
    · cases hb
      exact action t.otherwise
  exact checkBlocks_eq_ok_iff_run.2 (block.run 1 [])

/-! ## Lines -/

/-- The two lines of a row, by the keyword of its branch. -/
def TableText.rowLines (t : TableText) (keyword : String) (r : RuleText) : List String :=
  [keyword ++ (t.subject ++ " " ++ t.comparison.symbol ++ " " ++ Number.format r.boundary),
   "SET " ++ r.target ++ " = " ++ Text.trim r.value]

/-- The lines that a table in writing stands for. -/
def TableText.lines (t : TableText) : List String :=
  (t.rules.take 1).flatMap (t.rowLines "IF ") ++ (t.rules.drop 1).flatMap (t.rowLines "ELSEIF ") ++
  ("ELSE" :: t.otherwise.toList.map (fun d => "SET " ++ d.target ++ " = " ++ Text.trim d.value)) ++
  ["ENDIF"]

/-- A table in writing that becomes a program. -/
structure TableText.Complete (t : TableText) : Prop where
  rows : t.rules ≠ []
  otherwise : t.otherwise ≠ none
  subject : nameReason? t.subject = none
  targets : ∀ r ∈ t.rules, nameReason? r.target = none
  fallback : ∀ d ∈ t.otherwise, nameReason? d.target = none
  boundaries : ∀ r ∈ t.rules, r.boundary.isFinite = true
  values : ∀ r ∈ t.rules, expressionReason? r.value = none
  value : ∀ d ∈ t.otherwise, expressionReason? d.value = none
  words : ∀ r ∈ t.rules, ∀ w ∈ Erl.words r.value.toList, isUnderscored w = false
  word : ∀ d ∈ t.otherwise, ∀ w ∈ Erl.words d.value.toList, isUnderscored w = false

/-- A table is complete when it has no fault. -/
theorem TableText.complete_iff {t : TableText} : t.Complete ↔ t.faults = [] := by
  have name (text : String) : nameFaults text = [] ↔ nameReason? text = none := by
    simp [nameFaults]
  have boundary (x : Float) : boundaryFaults x = [] ↔ x.isFinite = true := by
    simp [boundaryFaults]
  have expression (text : String) :
      expressionFaults text = [] ↔ expressionReason? text = none := by
    simp [expressionFaults]
  have word (text : String) :
      wordFaults text = [] ↔ ∀ w ∈ Erl.words text.toList, isUnderscored w = false := by
    simp [wordFaults]
  cases otherwise : t.otherwise with
  | none =>
    refine iff_of_false (fun complete => complete.otherwise otherwise) ?_
    simp [TableText.faults, otherwise]
  | some default =>
    simp only [TableText.faults, TableText.checkFaults, otherwise, List.append_eq_nil_iff,
      List.flatMap_eq_nil_iff, name, boundary, expression, word]
    constructor
    · rintro ⟨rows, -, subject, targets, fallback, boundaries, values, value, words, last⟩
      exact ⟨by simp [rows], ⟨subject, targets, fallback default otherwise, boundaries, values,
        value default otherwise⟩, words, last default otherwise⟩
    · rintro ⟨rows, ⟨subject, targets, fallback, boundaries, values, value⟩, words, last⟩
      have only {p : ActionText → Prop} (h : p default) : ∀ d ∈ t.otherwise, p d := by
        rw [otherwise]
        rintro d ⟨⟩
        exact h
      refine ⟨by simpa using rows, by simp [otherwise], subject, targets, only fallback, boundaries,
        values, only value, words, only last⟩

/-! ## The first fault -/

theorem wordFaults_trim (text : String) : wordFaults (Text.trim text) = wordFaults text := by
  rw [wordFaults, Text.trim, String.toList_ofList, words_trimChars, wordFaults]

/-- A checked table has the words of its text. -/
theorem RuleTable.wordFaults_statements {t : RuleTable} {rules : List RuleText}
    {default : ActionText} (rows : List.Forall₂ RuleText.Reads rules t.rules)
    (otherwise : default.Reads t.otherwise) :
    t.statements.flatMap Statement.wordFaults =
      rules.flatMap (fun r => wordFaults r.value) ++ wordFaults default.value := by
  have action (a : Action) {text : String} (h : a.value.text = Text.trim text) :
      a.statement.wordFaults = wordFaults text := by
    rw [Action.statement, Statement.wordFaults, h, wordFaults_trim]
  have later {texts : List RuleText} {rs : List Rule} (h : List.Forall₂ RuleText.Reads texts rs) :
      (t.laterLines rs).flatMap Statement.wordFaults =
        texts.flatMap fun r => wordFaults r.value := by
    induction h with
    | nil => rfl
    | cons row _ ih =>
      rw [RuleTable.laterLines, List.flatMap_cons, List.flatMap_cons, List.flatMap_cons, ih,
        action _ row.2.2]
      rfl
  have branches {texts : List RuleText} {rs : List Rule}
      (h : List.Forall₂ RuleText.Reads texts rs) :
      (t.branchLines rs).flatMap Statement.wordFaults =
        texts.flatMap fun r => wordFaults r.value := by
    cases h with
    | nil => rfl
    | cons row rest =>
      rw [RuleTable.branchLines, List.flatMap_cons, List.flatMap_cons, List.flatMap_cons,
        later rest, action _ row.2.2]
      rfl
  rw [RuleTable.statements, List.flatMap_append, branches rows]
  congr 1
  rw [List.flatMap_cons, List.flatMap_cons, action _ otherwise.2]
  exact List.append_nil _

theorem TableText.firstOf_table {t : TableText} (rows : t.rules ≠ []) {default : ActionText}
    (otherwise : t.otherwise = some default) : FirstOf (t.checkFaults default) t.table := by
  unfold TableText.table
  rw [if_neg (by simpa using rows), otherwise]
  refine (firstOf_name _).bind fun subject _ => ?_
  refine (FirstOf.eachOk fun r _ => firstOf_name _).bind fun targets ht => ?_
  refine (firstOf_name _).bind fun fallback _ => ?_
  refine (FirstOf.eachOk fun r _ => firstOf_boundary _).bind fun bounds hb => ?_
  refine (FirstOf.eachOk fun r _ => firstOf_expression _).bind fun values hv => ?_
  rw [← List.append_nil (expressionFaults _)]
  refine (firstOf_expression _).bind fun value _ => ?_
  -- there are as many rows as were written down
  have reads := RuleText.reads_zip (eachOk_eq_ok_iff.1 ht) (eachOk_eq_ok_iff.1 hb)
    (eachOk_eq_ok_iff.1 hv)
  dsimp only
  cases checked : List.zipWith Rule.mk bounds (List.zipWith Action.mk targets values) with
  | nil =>
    rw [checked, List.forall₂_nil_right_iff] at reads
    exact absurd reads rows
  | cons r rest => exact firstOf_ok _

/-- A table in writing fails with the first of its faults. -/
theorem TableText.firstOf_build (t : TableText) : FirstOf t.faults t.build := by
  by_cases rows : t.rules = []
  · have failed : t.build = .error .noRules := by
      simp [TableText.build, TableText.table, rows]
      rfl
    have first : t.faults = .noRules :: t.faults.tail := by simp [TableText.faults, rows]
    rw [failed, first]
    exact firstOf_error _ _
  cases otherwise : t.otherwise with
  | none =>
    have failed : t.build = .error .noDefault := by
      simp [TableText.build, TableText.table, rows, otherwise]
      rfl
    have only : t.faults = [.noDefault] := by simp [TableText.faults, rows, otherwise]
    rw [failed, only]
    exact firstOf_error _ _
  | some default =>
    have split : t.faults = t.checkFaults default ++
        (t.rules.flatMap (fun r => wordFaults r.value) ++ wordFaults default.value) := by
      simp [TableText.faults, rows, otherwise]
    rw [split]
    refine (t.firstOf_table rows otherwise).bind fun table checked => ?_
    obtain ⟨d, hd, -, -, reads, last⟩ := TableText.reads_of_table checked
    rw [otherwise] at hd
    cases hd
    rw [← RuleTable.wordFaults_statements reads last]
    exact Code.firstOf_ofStatements (by simp [RuleTable.statements]) table.checkBlocks_statements

/-! ## Lines of a built table -/

section Lines

variable {text : TableText} {t : RuleTable} (subject : t.subject.text = text.subject)
  (comparison : t.comparison = text.comparison)

include subject comparison

theorem render_condition {row : RuleText} {r : Rule} (h : row.Reads r) :
    (t.condition r).render = text.subject ++ " " ++ text.comparison.symbol ++ " " ++
      Number.format row.boundary := by
  rw [RuleTable.condition, Condition.render, subject, comparison, h.1]

theorem render_laterLines {rows : List RuleText} {rs : List Rule}
    (h : List.Forall₂ RuleText.Reads rows rs) :
    (t.laterLines rs).map Statement.render = rows.flatMap (text.rowLines "ELSEIF ") := by
  induction h with
  | nil => rfl
  | cons row _ ih =>
    simp [RuleTable.laterLines, TableText.rowLines, Statement.render, Action.statement, ih, row.2,
      render_condition subject comparison row]

theorem render_branchLines {rows : List RuleText} {rs : List Rule}
    (h : List.Forall₂ RuleText.Reads rows rs) :
    (t.branchLines rs).map Statement.render =
      (rows.take 1).flatMap (text.rowLines "IF ") ++
        (rows.drop 1).flatMap (text.rowLines "ELSEIF ") := by
  cases h with
  | nil => rfl
  | cons row rest =>
    simp [RuleTable.branchLines, TableText.rowLines, Statement.render, Action.statement, row.2,
      render_condition subject comparison row, render_laterLines subject comparison rest]

end Lines

theorem TableText.lines_of_build {t : TableText} {c : Code} (h : t.build = .ok c) :
    c.lines = t.lines := by
  obtain ⟨table, checked, statements⟩ := TableText.statements_of_build h
  obtain ⟨default, otherwise, subject, comparison, rows, last⟩ := TableText.reads_of_table checked
  rw [Code.lines, statements, RuleTable.statements, List.map_append,
    render_branchLines subject comparison rows]
  simp [TableText.lines, otherwise, Statement.render, Action.statement, last.1, last.2]

/-- A row has two lines, and three lines close the table. -/
theorem TableText.length_lines {t : TableText} (rows : t.rules ≠ [])
    (otherwise : t.otherwise ≠ none) : t.lines.length = 2 * t.rules.length + 3 := by
  obtain ⟨first, later, rows⟩ := List.exists_cons_of_ne_nil rows
  obtain ⟨default, otherwise⟩ := Option.ne_none_iff_exists'.1 otherwise
  have two (keyword : String) (rs : List RuleText) :
      (rs.flatMap (t.rowLines keyword)).length = 2 * rs.length := by
    simp [TableText.rowLines, List.length_flatMap, Nat.mul_comm]
  simp only [TableText.lines, List.length_append, two, rows, otherwise, List.length_cons]
  simp
  omega

/-- No fault of a table is about its branches. -/
theorem TableText.ne_unmatchedBranch_of_mem_faults {t : TableText} {fault : Fault}
    (h : fault ∈ t.faults) {branch : BranchFault} : fault ≠ .unmatchedBranch branch := by
  rintro rfl
  have name (text : String) : Fault.unmatchedBranch branch ∉ nameFaults text := by
    simp [nameFaults]
  have boundary (x : Float) : Fault.unmatchedBranch branch ∉ boundaryFaults x := by
    unfold boundaryFaults
    split <;> simp
  have expression (text : String) : Fault.unmatchedBranch branch ∉ expressionFaults text := by
    simp [expressionFaults]
  have word (text : String) : Fault.unmatchedBranch branch ∉ wordFaults text := by
    simp [wordFaults]
  cases otherwise : t.otherwise <;>
    simp [TableText.faults, TableText.checkFaults, otherwise, name, boundary, expression, word] at h

/-- What becomes of a table in writing.  It becomes a program exactly when it is complete; the
    lines are then one branch for each row, in the order given, and one for the default.
    Otherwise the first of its faults is reported, never a branch that does not match. -/
theorem TableText.build_outcome (t : TableText) :
    ((∃ c, t.build = .ok c) ↔ t.Complete) ∧
      (∀ c, t.build = .ok c → c.lines = t.lines ∧ c.lines.length = 2 * t.rules.length + 3) ∧
      (∀ fault, t.build = .error fault ↔ t.faults.head? = some fault) ∧
      ∀ fault, t.build ≠ .error (.unmatchedBranch fault) := by
  have outcome := t.firstOf_build
  refine ⟨outcome.exists_ok_iff.trans TableText.complete_iff.symm, fun c h => ?_, outcome, ?_⟩
  · have complete := TableText.complete_iff.2 (outcome.exists_ok_iff.1 ⟨c, h⟩)
    rw [TableText.lines_of_build h]
    exact ⟨rfl, TableText.length_lines complete.rows complete.otherwise⟩
  · intro fault failed
    exact TableText.ne_unmatchedBranch_of_mem_faults
      (List.mem_of_mem_head? ((outcome _).1 failed)) rfl

end BuildingControl.Erl
