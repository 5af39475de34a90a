/-
  BuildingControl.Proofs.Erl.Fault

  What can be wrong with the text of a program.  Whatever is made of text (names,
  expressions, lines, programs) fails for the text alone: a name or an expression
  that is none, lines whose branches do not match, or no line at all.  A table
  has two further faults, having no row and a boundary that is not finite.
-/
import BuildingControl.Erl.RuleTable
import BuildingControl.Proofs.Checking

namespace BuildingControl.Erl

/-- Whether a fault lies in the text of a program. -/
def Fault.isTextual : Fault → Bool
  | .invalidName _ _ => true
  | .invalidExpression _ _ => true
  | .unmatchedBranch _ => true
  | .argument .emptyProgram => true
  | _ => false

/-- Whether a fault lies in how an object is written down: in a text, or in a control that its
    component does not offer. -/
def Fault.isSpelling : Fault → Bool
  | .unsupportedControl _ _ => true
  | fault => fault.isTextual

theorem Fault.isSpelling_of_isTextual {fault : Fault} (textual : fault.isTextual = true) :
    fault.isSpelling = true := by
  cases fault with
  | unsupportedControl componentType control => rfl
  | _ => exact textual

/-- A step that fails, if it does, for the text of a program. -/
def Textual (x : Except Fault α) : Prop :=
  OnFault (fun fault => fault.isTextual = true) x

/-- Whether a fault is a name that is taken already. -/
def Fault.isDuplicate : Fault → Bool
  | .duplicateName _ => true
  | _ => false

/-- A step that never fails for a name that is taken already. -/
def Clashless (x : Except Fault α) : Prop :=
  OnFault (fun fault => fault.isDuplicate = false) x

/-- How an object is written down says nothing of the names in use. -/
theorem Fault.isDuplicate_of_isSpelling {fault : Fault} (spelling : fault.isSpelling = true) :
    fault.isDuplicate = false := by
  cases fault with
  | duplicateName name => cases spelling
  | _ => rfl

theorem Fault.isDuplicate_of_isTextual {fault : Fault} (textual : fault.isTextual = true) :
    fault.isDuplicate = false :=
  isDuplicate_of_isSpelling (isSpelling_of_isTextual textual)

theorem Textual.clashless {x : Except Fault α} (h : Textual x) : Clashless x :=
  OnFault.imp h fun _ => Fault.isDuplicate_of_isTextual

/-! ## Names -/

/-- A step that fails, if it does, for a word that is no name. -/
def Misnamed (x : Except Fault α) : Prop :=
  OnFault (fun fault => ∃ text reason, fault = .invalidName text reason) x

theorem Misnamed.textual {x : Except Fault α} (h : Misnamed x) : Textual x := by
  intro fault failed
  obtain ⟨text, reason, rfl⟩ := h fault failed
  rfl

theorem misnamed_name (text : String) : Misnamed (Name.ofText? text) := by
  unfold Name.ofText? Misnamed
  split
  · exact onFault_ok _
  · exact onFault_error.2 ⟨_, _, rfl⟩

theorem misnamed_namesAmong (words : List String) : Misnamed (namesAmong words) := by
  refine OnFault.foldlM (fun found word => ?_) [] words
  split
  · exact onFault_ok _
  · exact (misnamed_name word).map _

theorem Condition.misnamed_names (c : Condition) : Misnamed c.names := by
  cases c with
  | compare subject comparison boundary => exact onFault_ok _
  | expression e => exact misnamed_namesAmong _

theorem Statement.misnamed_usage (s : Statement) : Misnamed s.usage := by
  cases s with
  | assign target value => exact OnFault.map (misnamed_namesAmong _) _
  | ifThen condition => exact OnFault.map condition.misnamed_names _
  | elseIf condition => exact OnFault.map condition.misnamed_names _
  | otherwise => exact onFault_ok _
  | endIf => exact onFault_ok _
  | run subroutine => exact onFault_ok _
  | leave => exact onFault_ok _

/-- The names of lines fail for a name alone. -/
theorem misnamed_usageOf (statements : List Statement) : Misnamed (usageOf statements) :=
  OnFault.foldlM (fun _ s => s.misnamed_usage.map _) _ _

/-! ## Programs -/

theorem textual_name (text : String) : Textual (Name.ofText? text) :=
  (misnamed_name text).textual

theorem textual_expression (text : String) : Textual (Expression.ofText? text) := by
  unfold Expression.ofText? Textual
  split <;> simp [Fault.isTextual]

theorem textual_code (statements : List Statement) : Textual (Code.ofStatements statements) := by
  have examined : Textual (examine statements) := by
    have branches (x : Except BranchFault Unit) : Textual (x.mapError .unmatchedBranch) :=
      OnFault.mapError fun _ => rfl
    unfold examine
    split
    · exact onFault_error.2 rfl
    · refine (branches _).bind fun _ _ => ?_
      refine (misnamed_usageOf statements).textual.bind fun usage _ => ?_
      exact (branches _).bind fun _ _ => onFault_ok _
  unfold Code.ofStatements
  split
  · exact onFault_ok _
  · next fault failed => exact onFault_error.2 (examined fault failed)

theorem RuleTable.textual_ofRules {subject : Name} {comparison : Comparison} {rules : List Rule}
    {otherwise : Action} (rows : rules ≠ []) :
    Textual (RuleTable.ofRules subject comparison rules otherwise) := by
  cases rules with
  | nil => exact absurd rfl rows
  | cons r rest => exact onFault_ok _

/-- A table with rows whose boundaries are finite fails for its text alone. -/
theorem TableText.textual_build {t : TableText} (rows : t.rules ≠ [])
    (finite : ∀ r ∈ t.rules, r.boundary.isFinite = true) {default : ActionText}
    (otherwise : t.otherwise = some default) : Textual t.build := by
  have boundary (r : RuleText) (hr : r ∈ t.rules) :
      Textual (Boundary.ofFloat? "rule boundary" r.boundary) := by
    rw [Boundary.ofFloat?, dif_pos (finite r hr)]
    exact onFault_ok _
  have table : Textual t.table := by
    unfold TableText.table
    rw [if_neg (by simpa using rows), otherwise]
    refine (textual_name _).bind fun subject _ => ?_
    refine (OnFault.eachOk fun r _ => textual_name _).bind fun targets ht => ?_
    refine (textual_name _).bind fun fallback _ => ?_
    refine (OnFault.eachOk boundary).bind fun bounds hb => ?_
    refine (OnFault.eachOk fun r _ => textual_expression _).bind fun values hv => ?_
    refine (textual_expression _).bind fun value _ => ?_
    -- there are as many rows as were written down
    have rows' : List.zipWith Rule.mk bounds (List.zipWith Action.mk targets values) ≠ [] := by
      intro none
      have count := congrArg List.length none
      simp only [List.length_zipWith, length_of_eachOk ht, length_of_eachOk hb,
        length_of_eachOk hv, List.length_nil] at count
      exact rows (List.length_eq_zero_iff.1 (by omega))
    exact RuleTable.textual_ofRules rows'
  exact table.bind fun table _ => textual_code _

/-! ## Drafts -/

namespace Draft

section OnFaults

variable {P : Fault → Prop}

/-- The lines of a draft fail like one of them. -/
theorem onFault_statements? {d : Draft} (lines : OnFaults P d) : OnFault P d.statements? := by
  induction d with
  | nil => exact onFault_ok _
  | cons line d ih =>
    obtain ⟨first, rest⟩ := List.forall_mem_cons.1 lines
    cases line with
    | ok s => exact (ih rest).map _
    | error fault => exact onFault_error.2 (first fault rfl)

@[simp] theorem onFaults_push (s : Statement) : OnFaults P (push s) :=
  onFaults_singleton.2 (onFault_ok s)

/-- A branch fails for its subject, or for a boundary that is not finite. -/
theorem onFaults_ifCompare {subject : String} {comparison : Comparison} {value : Float}
    (name : OnFault P (Name.ofText? subject))
    (boundary : value.isFinite = false → P (.nonFinite ⟨"condition boundary", value⟩)) :
    OnFaults P (ifCompare subject comparison value) := by
  have bounded : OnFault P (Boundary.ofFloat? "condition boundary" value) := by
    unfold Boundary.ofFloat?
    split
    · exact onFault_ok _
    · next special => exact onFault_error.2 (boundary (Bool.eq_false_iff.2 special))
  exact onFaults_singleton.2 (name.bind fun _ _ => (bounded.map _).bind fun _ _ => onFault_ok _)

section Textual

variable (textual : ∀ fault : Fault, fault.isTextual = true → P fault)

include textual

theorem onFaults_set (target value : String) : OnFaults P (set target value) :=
  onFaults_singleton.2 (((textual_name target).imp textual).bind fun _ _ =>
    ((textual_expression value).imp textual).bind fun _ _ => onFault_ok _)

theorem onFaults_run (subroutine : String) : OnFaults P (run subroutine) :=
  onFaults_singleton.2 (((textual_name subroutine).imp textual).map _)

/-- A draft becomes a program, or fails like one of its lines or for its text. -/
theorem onFault_build {d : Draft} (lines : OnFaults P d) : OnFault P d.build := by
  unfold build
  split
  · exact (textual_code _).imp textual
  · next fault failed => exact onFault_error.2 (onFault_statements? lines fault failed)

end Textual

end OnFaults

/-- No line of a draft fails for a name that is taken already. -/
def Clean (d : Draft) : Prop :=
  OnFaults (fun fault => fault.isDuplicate = false) d

@[simp] theorem clean_append {d e : Draft} : Clean (d ++ e) ↔ d.Clean ∧ e.Clean :=
  onFaults_append

theorem clean_flatMap {α : Type} {xs : List α} {part : α → Draft}
    (h : ∀ x ∈ xs, (part x).Clean) : Clean (xs.flatMap part) :=
  onFaults_flatMap.2 h

@[simp] theorem clean_push (s : Statement) : (push s).Clean :=
  onFaults_push s

@[simp] theorem clean_set (target value : String) : (set target value).Clean :=
  onFaults_set (fun _ => Fault.isDuplicate_of_isTextual) target value

@[simp] theorem clean_run (subroutine : String) : (run subroutine).Clean :=
  onFaults_run (fun _ => Fault.isDuplicate_of_isTextual) subroutine

@[simp] theorem clean_ifCompare (subject : String) (comparison : Comparison)
    (value : Float) : (ifCompare subject comparison value).Clean :=
  onFaults_ifCompare (textual_name subject).clashless fun _ => rfl

/-- Nor does the program that a draft becomes. -/
theorem Clean.build {d : Draft} (h : d.Clean) : Clashless d.build :=
  onFault_build (fun _ => Fault.isDuplicate_of_isTextual) h

end Draft

end BuildingControl.Erl
