/-
  BuildingControl.Proofs.Erl.Scope

  Lines that stay within a scope: the names they may read, assign to and run.
  Whether a draft stays within a scope is a matter of its lines, so it is shown
  for the ways of making a line and goes over to everything put together from
  them, and from a draft to the program it becomes.
-/
import BuildingControl.Proofs.Erl.Reference
import BuildingControl.Proofs.Erl.RuleTable
import BuildingControl.Proofs.Erl.Word

namespace BuildingControl

/-! ## Results of steps -/

section OnResults

variable {ε α β : Type} {P : α → Prop}

/-- What holds of every result of a list of steps, faults aside. -/
def OnResults (P : α → Prop) (steps : List (Except ε α)) : Prop :=
  ∀ x, .ok x ∈ steps → P x

@[simp] theorem onResults_nil : OnResults P ([] : List (Except ε α)) := by
  intro x hx
  cases hx

@[simp] theorem onResults_append {steps more : List (Except ε α)} :
    OnResults P (steps ++ more) ↔ OnResults P steps ∧ OnResults P more := by
  simp only [OnResults, List.mem_append, or_imp, forall_and]

@[simp] theorem onResults_flatMap {f : β → List (Except ε α)} {bs : List β} :
    OnResults P (bs.flatMap f) ↔ ∀ b ∈ bs, OnResults P (f b) := by
  simp only [OnResults, List.mem_flatMap, forall_exists_index, and_imp]
  exact ⟨fun h b hb x hx => h x b hb hx, fun h x b hb hx => h b hb x hx⟩

@[simp] theorem onResults_singleton {step : Except ε α} :
    OnResults P [step] ↔ ∀ x, step = .ok x → P x := by
  simp only [OnResults, List.mem_singleton, eq_comm]

theorem AllOk.forall_of_onResults {steps : List (Except ε α)} {xs : List α} (h : AllOk steps xs)
    (on : OnResults P steps) : ∀ x ∈ xs, P x := by
  rw [AllOk] at h
  subst h
  exact fun x hx => on x (List.mem_map_of_mem hx)

/-- A part of steps without faults has no fault either. -/
theorem AllOk.exists_of_subset {steps part : List (Except ε α)} {xs : List α} (h : AllOk steps xs)
    (sub : part ⊆ steps) : ∃ ys, AllOk part ys ∧ ys ⊆ xs := by
  rw [AllOk] at h
  subst h
  induction part with
  | nil => exact ⟨[], rfl, List.nil_subset xs⟩
  | cons step part ih =>
    obtain ⟨first, rest⟩ := List.cons_subset.1 sub
    obtain ⟨y, hy, rfl⟩ := List.mem_map.1 first
    obtain ⟨ys, hys, within⟩ := ih rest
    have all : AllOk (.ok y :: part) (y :: ys) := by rw [hys, AllOk, List.map_cons]
    exact ⟨y :: ys, all, List.cons_subset.2 ⟨hy, within⟩⟩

end OnResults

namespace Erl

/-! ## Names that a draft assigns to -/

/-- A draft with a line that assigns to a name. -/
def Draft.Assigns (d : Draft) (target : String) : Prop :=
  ∃ value, Draft.set target value ⊆ d

@[simp] theorem Draft.assigns_set {target value : String} :
    (Draft.set target value).Assigns target :=
  ⟨value, List.Subset.refl _⟩

@[simp] theorem Draft.assigns_append {d e : Draft} {target : String} :
    Draft.Assigns (d ++ e) target ↔ d.Assigns target ∨ e.Assigns target := by
  simp only [Assigns, set, List.cons_subset, List.nil_subset, and_true, List.mem_append, exists_or]

theorem Draft.assigns_flatMap {β : Type} {f : β → Draft} {bs : List β} {target : String} :
    Draft.Assigns (bs.flatMap f) target ↔ ∃ b ∈ bs, (f b).Assigns target := by
  simp only [Assigns, set, List.cons_subset, List.nil_subset, and_true, List.mem_flatMap]
  constructor
  · rintro ⟨value, b, hb, mem⟩
    exact ⟨b, hb, value, mem⟩
  · rintro ⟨b, hb, value, mem⟩
    exact ⟨value, b, hb, mem⟩

/-! ## Scopes -/

/-- The names that lines may read, assign to and run, by their spelling. -/
structure Scope where
  reads : String → Prop
  writes : String → Prop
  runs : String → Prop

/-- A line that uses no name outside a scope. -/
structure Statement.Within (σ : Scope) (s : Statement) : Prop where
  reads : ∀ w ∈ s.words, isReserved w = false → σ.reads w
  writes : ∀ n, s.target? = some n → σ.writes n.text
  runs : ∀ n, s.subroutine? = some n → σ.runs n.text

namespace Scope

variable {σ : Scope}

theorem within_assign {target : Name} {value : Expression}
    (reads : ∀ w ∈ words value.text.toList, isReserved w = false → σ.reads w)
    (writes : σ.writes target.text) : (Statement.assign target value).Within σ where
  reads := reads
  writes n hn := by
    cases hn
    exact writes
  runs n hn := by cases hn

theorem within_branch {branch : Condition → Statement}
    (kind : branch = .ifThen ∨ branch = .elseIf) {c : Condition}
    (reads : ∀ w ∈ words c.render.toList, isReserved w = false → σ.reads w) :
    (branch c).Within σ := by
  rcases kind with rfl | rfl
  · exact ⟨reads, nofun, nofun⟩
  · exact ⟨reads, nofun, nofun⟩

theorem within_of_no_names {s : Statement} (h : s = .otherwise ∨ s = .endIf ∨ s = .leave) :
    s.Within σ := by
  rcases h with rfl | rfl | rfl <;> exact ⟨nofun, nofun, nofun⟩

/-! ### Drafts -/

theorem within_set {target value : String}
    (reads : ∀ w ∈ words value.toList, isReserved w = false → σ.reads w)
    (writes : σ.writes target) : OnResults (Statement.Within σ) (Draft.set target value) := by
  rw [Draft.set, onResults_singleton]
  intro s hs
  simp only [bind_eq_ok_iff, Name.ofText?_eq_ok_iff] at hs
  obtain ⟨n, hn, e, he, hs⟩ := hs
  cases hs
  rw [← Expression.words_of_ofText? he] at reads
  exact within_assign reads (hn ▸ writes)

theorem within_ifCompare {subject : String} {comparison : Comparison} {value : Float}
    (reads : σ.reads subject) :
    OnResults (Statement.Within σ) (Draft.ifCompare subject comparison value) := by
  rw [Draft.ifCompare, Draft.compare, onResults_singleton]
  intro s hs
  simp only [bind_eq_ok_iff, Name.ofText?_eq_ok_iff, Condition.compare?, map_eq_ok_iff] at hs
  obtain ⟨n, hn, _, ⟨b, -, rfl⟩, hs⟩ := hs
  cases hs
  refine within_branch (.inl rfl) fun w hw _ => ?_
  rw [words_compare, List.mem_singleton] at hw
  rw [hw, hn]
  exact reads

theorem within_run {subroutine : String} (runs : σ.runs subroutine) :
    OnResults (Statement.Within σ) (Draft.run subroutine) := by
  rw [Draft.run, onResults_singleton]
  intro s hs
  obtain ⟨n, hn, rfl⟩ := map_eq_ok_iff.1 hs
  refine ⟨nofun, nofun, fun k hk => ?_⟩
  cases hk
  rw [Name.ofText?_eq_ok_iff.1 hn]
  exact runs

theorem within_push {s : Statement} (h : s.Within σ) :
    OnResults (Statement.Within σ) (Draft.push s) := by
  rw [Draft.push, onResults_singleton]
  intro t ht
  cases ht
  exact h

/-- A program stays within the scope of its draft. -/
theorem within_of_build {d : Draft} {c : Code} (h : d.build = .ok c)
    (within : OnResults (Statement.Within σ) d) : ∀ s ∈ c.statements, s.Within σ :=
  (Draft.statements_of_build h).forall_of_onResults within

/-- A name that a draft assigns to is one that the program assigns to. -/
theorem exists_target_of_build {d : Draft} {c : Code} (h : d.build = .ok c) {target : String}
    (assigns : d.Assigns target) : ∃ s ∈ c.statements, ∃ n, s.target? = some n ∧ n.text = target := by
  obtain ⟨value, part⟩ := assigns
  obtain ⟨ss, hss, sub⟩ := (Draft.statements_of_build h).exists_of_subset part
  rw [Draft.set, allOk_singleton_iff] at hss
  obtain ⟨s, hs, rfl⟩ := hss
  simp only [bind_eq_ok_iff, Name.ofText?_eq_ok_iff] at hs
  obtain ⟨n, hn, e, he, hs⟩ := hs
  cases hs
  exact ⟨_, sub List.mem_cons_self, n, rfl, hn⟩

/-! ### Tables -/

/-- A threshold table stays within a scope when its subject and its actions do. -/
theorem within_table {t : TableText} {c : Code} (h : t.build = .ok c) (subject : σ.reads t.subject)
    (rules : ∀ r ∈ t.rules, r.boundary.isFinite = true → σ.writes r.target ∧
      ∀ w ∈ words r.value.toList, isReserved w = false → σ.reads w)
    (otherwise : ∀ d, t.otherwise = some d → σ.writes d.target ∧
      ∀ w ∈ words d.value.toList, isReserved w = false → σ.reads w) :
    ∀ s ∈ c.statements, s.Within σ := by
  obtain ⟨table, ht, lines⟩ := TableText.statements_of_build h
  obtain ⟨default, hd, hsubject, -, hrules, target, value⟩ := TableText.reads_of_table ht
  have trimmed {text : String} {e : Expression} (he : e.text = Text.trim text) :
      words e.text.toList = words text.toList := by
    rw [he, Text.trim, String.toList_ofList, words_trimChars]
  have branch {kind : Condition → Statement} (hk : kind = .ifThen ∨ kind = .elseIf) (r : Rule) :
      (kind (table.condition r)).Within σ := by
    refine within_branch hk fun w hw _ => ?_
    rw [RuleTable.condition, words_compare, List.mem_singleton] at hw
    rw [hw, hsubject]
    exact subject
  have action (r : Rule) (hr : r ∈ table.rules) : r.action.statement.Within σ := by
    obtain ⟨text, htext, boundary, htarget, hvalue⟩ := exists_of_mem_forall₂ hrules.flip hr
    obtain ⟨writes, reads⟩ := rules text htext (boundary ▸ r.boundary.finite)
    rw [← trimmed hvalue] at reads
    exact within_assign reads (htarget ▸ writes)
  have fallback : table.otherwise.statement.Within σ := by
    obtain ⟨writes, reads⟩ := otherwise default hd
    rw [← trimmed value] at reads
    exact within_assign reads (target ▸ writes)
  have later (rs : List Rule) (sub : rs ⊆ table.rules) :
      ∀ s ∈ table.laterLines rs, s.Within σ := by
    induction rs with
    | nil => exact List.forall_mem_nil _
    | cons r rs ih =>
      obtain ⟨first, rest⟩ := List.cons_subset.1 sub
      exact List.forall_mem_cons.2
        ⟨branch (.inr rfl) r, List.forall_mem_cons.2 ⟨action r first, ih rest⟩⟩
  have branches : ∀ s ∈ table.branchLines table.rules, s.Within σ := by
    cases rs : table.rules with
    | nil => exact List.forall_mem_nil _
    | cons r rest =>
      have sub : r :: rest ⊆ table.rules := by rw [rs]; exact List.Subset.refl _
      obtain ⟨first, others⟩ := List.cons_subset.1 sub
      exact List.forall_mem_cons.2
        ⟨branch (.inl rfl) r, List.forall_mem_cons.2 ⟨action r first, later rest others⟩⟩
  rw [lines, RuleTable.statements]
  intro s hs
  rcases List.mem_append.1 hs with hs | hs
  · exact branches s hs
  · simp only [List.mem_cons, List.not_mem_nil, or_false] at hs
    rcases hs with rfl | rfl | rfl
    · exact within_of_no_names (.inl rfl)
    · exact fallback
    · exact within_of_no_names (.inr (.inl rfl))

/-- A table assigns to the target of its default. -/
theorem exists_target_of_table {t : TableText} {c : Code} (h : t.build = .ok c) {d : ActionText}
    (hd : t.otherwise = some d) :
    ∃ s ∈ c.statements, ∃ n, s.target? = some n ∧ n.text = d.target := by
  obtain ⟨table, ht, lines⟩ := TableText.statements_of_build h
  obtain ⟨default, hdefault, -, -, -, target, -⟩ := TableText.reads_of_table ht
  rw [hd] at hdefault
  cases hdefault
  refine ⟨table.otherwise.statement, ?_, table.otherwise.target, rfl, target⟩
  rw [lines, RuleTable.statements]
  simp

end Scope

end Erl

end BuildingControl
