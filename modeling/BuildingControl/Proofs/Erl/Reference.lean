/-
  BuildingControl.Proofs.Erl.Reference

  The names of a program, line by line.  A program reads a name only where one of
  its lines has it as a word, and it assigns to and runs exactly what its lines
  assign to and run.
-/
import BuildingControl.Proofs.Erl.Usage

namespace BuildingControl.Erl

/-! ## Words of a line -/

/-- The words of the expressions of a line. -/
def Statement.words : Statement → List String
  | .assign _ value => Erl.words value.text.toList
  | .ifThen condition => Erl.words condition.render.toList
  | .elseIf condition => Erl.words condition.render.toList
  | _ => []

/-- What an expression reads is among its words. -/
theorem Expression.text_mem_words {e : Expression} {names : List Name} (h : e.names = .ok names) :
    ∀ n ∈ names, n.text ∈ Erl.words e.text.toList := by
  rw [names_eq] at h
  exact fun n hn => (List.mem_filter.1 (text_mem_of_namesAmong h n hn)).1

theorem Condition.text_mem_words {c : Condition} {names : List Name} (h : c.names = .ok names) :
    ∀ n ∈ names, n.text ∈ Erl.words c.render.toList := by
  cases c with
  | compare subject comparison boundary =>
    cases h
    rw [words_compare]
    simp
  | expression e => exact Expression.text_mem_words h

/-- What a line reads is among its words. -/
theorem Statement.text_mem_words {s : Statement} {u : Usage} (h : s.usage = .ok u) :
    ∀ n ∈ u.reads, n.text ∈ s.words := by
  cases s with
  | assign target value =>
    obtain ⟨names, hn, rfl⟩ := map_eq_ok_iff.1 h
    exact Expression.text_mem_words hn
  | ifThen c =>
    obtain ⟨names, hn, rfl⟩ := map_eq_ok_iff.1 h
    exact Condition.text_mem_words hn
  | elseIf c =>
    obtain ⟨names, hn, rfl⟩ := map_eq_ok_iff.1 h
    exact Condition.text_mem_words hn
  | _ =>
    cases h
    simp [Usage.none]

/-! ## What a line assigns to and runs -/

/-- The name a line assigns to. -/
def Statement.target? : Statement → Option Name
  | .assign target _ => some target
  | _ => none

/-- The subroutine a line runs. -/
def Statement.subroutine? : Statement → Option Name
  | .run subroutine => some subroutine
  | _ => none

theorem Statement.usage_eq {s : Statement} {u : Usage} (h : s.usage = .ok u) :
    u.writes = s.target?.toList ∧ u.runs = s.subroutine?.toList := by
  cases s with
  | assign target value =>
    obtain ⟨names, -, rfl⟩ := map_eq_ok_iff.1 h
    exact ⟨rfl, rfl⟩
  | ifThen c =>
    obtain ⟨names, -, rfl⟩ := map_eq_ok_iff.1 h
    exact ⟨rfl, rfl⟩
  | elseIf c =>
    obtain ⟨names, -, rfl⟩ := map_eq_ok_iff.1 h
    exact ⟨rfl, rfl⟩
  | _ =>
    cases h
    exact ⟨rfl, rfl⟩

/-! ## Programs -/

/-- Every line of a program has a usage. -/
theorem Code.exists_usages (c : Code) :
    ∃ us, List.Forall₂ (fun s u => s.usage = .ok u) c.statements us ∧
      us.foldl Usage.append .none = c.usage := by
  have usage := (examine_eq_ok_iff.1 c.examined).2.2
  rw [usageOf_eq] at usage
  obtain ⟨us, each, folded⟩ := map_eq_ok_iff.1 usage
  exact ⟨us, eachOk_eq_ok_iff.1 each, folded⟩

theorem Code.exists_usage (c : Code) {s : Statement} (h : s ∈ c.statements) :
    ∃ u, s.usage = .ok u := by
  obtain ⟨us, lines, -⟩ := c.exists_usages
  obtain ⟨u, -, usage⟩ := exists_of_mem_forall₂ lines h
  exact ⟨u, usage⟩

section Part

-- one of the three lists of a usage
variable (part : Usage → List Name)
  (hpart : ∀ u v : Usage, part (u.append v) = pushUnique (part u) (part v))

include hpart

theorem mem_part_foldl {us : List Usage} {u : Usage} {n : Name} :
    n ∈ part (us.foldl Usage.append u) ↔ n ∈ part u ∨ ∃ v ∈ us, n ∈ part v := by
  induction us generalizing u with
  | nil => simp
  | cons v us ih =>
    have first : n ∈ part (u.append v) ↔ n ∈ part u ∨ n ∈ part v := by
      rw [hpart, mem_pushUnique]
    simp only [List.foldl_cons, ih, first, List.mem_cons, exists_eq_or_imp, or_assoc]

/-- A name of a program is a name of one of its lines. -/
theorem Code.mem_part_iff (none : part .none = []) {c : Code} {n : Name} :
    n ∈ part c.usage ↔ ∃ s ∈ c.statements, ∃ u, s.usage = .ok u ∧ n ∈ part u := by
  obtain ⟨us, lines, folded⟩ := c.exists_usages
  rw [← folded, mem_part_foldl part hpart, none]
  constructor
  · intro h
    obtain ⟨u, hu, hn⟩ := h.resolve_left List.not_mem_nil
    obtain ⟨s, hs, line⟩ := exists_of_mem_forall₂ lines.flip hu
    exact ⟨s, hs, u, line, hn⟩
  · rintro ⟨s, hs, v, hv, hn⟩
    obtain ⟨u, hu, line⟩ := exists_of_mem_forall₂ lines hs
    have same : u = v := Except.ok.inj (line.symm.trans hv)
    rw [← same] at hn
    exact .inr ⟨u, hu, hn⟩

end Part

/-- What a program reads is a word of one of its lines. -/
theorem Code.exists_of_mem_reads {c : Code} {n : Name} (h : n ∈ c.reads) :
    ∃ s ∈ c.statements, n.text ∈ s.words := by
  have lines := (mem_part_iff Usage.reads (fun _ _ => rfl) rfl).1 h
  obtain ⟨s, hs, u, usage, hn⟩ := lines
  exact ⟨s, hs, Statement.text_mem_words usage n hn⟩

/-- What a program assigns to. -/
theorem Code.mem_writes_iff {c : Code} {n : Name} :
    n ∈ c.writes ↔ ∃ s ∈ c.statements, s.target? = some n := by
  have lines := mem_part_iff Usage.writes (fun _ _ => rfl) rfl (c := c) (n := n)
  rw [Code.writes, lines]
  refine exists_congr fun s => and_congr_right fun hs => ?_
  constructor
  · rintro ⟨u, usage, hn⟩
    rwa [(Statement.usage_eq usage).1, Option.mem_toList] at hn
  · intro hn
    obtain ⟨u, usage⟩ := c.exists_usage hs
    refine ⟨u, usage, ?_⟩
    rwa [(Statement.usage_eq usage).1, Option.mem_toList]

/-- What a program runs. -/
theorem Code.exists_of_mem_runs {c : Code} {n : Name} (h : n ∈ c.runs) :
    ∃ s ∈ c.statements, s.subroutine? = some n := by
  have lines := (mem_part_iff Usage.runs (fun _ _ => rfl) rfl).1 h
  obtain ⟨s, hs, u, usage, hn⟩ := lines
  rw [(Statement.usage_eq usage).2, Option.mem_toList] at hn
  exact ⟨s, hs, hn⟩

end BuildingControl.Erl
