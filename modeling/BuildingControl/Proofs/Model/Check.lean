/-
  BuildingControl.Proofs.Model.Check

  What can be wrong with a model whose references all lead somewhere.  Names that
  a body assigns to without declaring them are local to it, and nothing keeps an
  object of the model from having such a name.  For a model that is closed up to
  its local names this is the one thing left to go wrong (`Closed.check_eq_error`), and
  it goes wrong exactly when a local name is that of an object that may not be
  assigned to (`Closed.check_eq_ok_iff`).
-/
import BuildingControl.Model.Check
import BuildingControl.Proofs.Erl.Scope

namespace BuildingControl

/-! ## The first fault of a list of checks -/

theorem exists_of_allOk_eq_error {ε α : Type} {f : α → Except ε Unit} {xs : List α} {e : ε}
    (h : allOk f xs = .error e) : ∃ x ∈ xs, f x = .error e := by
  induction xs with
  | nil => cases h
  | cons x xs ih =>
    rw [allOk] at h
    split at h
    · next fault hx =>
      cases h
      exact ⟨x, List.mem_cons_self, hx⟩
    · obtain ⟨y, hy, hf⟩ := ih h
      exact ⟨y, List.mem_cons_of_mem x hy, hf⟩

theorem check_bind_eq_error {ε : Type} {x : Except ε Unit} {f : Unit → Except ε Unit} {e : ε}
    (h : (x >>= f) = .error e) : x = .error e ∨ f () = .error e := by
  cases x with
  | error fault => exact .inl h
  | ok u => exact .inr h

namespace Model

open Erl

/-! ## Names that stand for something -/

/-- A word that stands for something in a model. -/
structure Declares (m : Model) (name : String) (cls : NameClass) : Prop where
  word : isWord name.toList = true
  found : m.lookup? name = some cls

/-! ## Closed models -/

/-- Every name in a body stands for something it may stand for, or is local. -/
structure ClosedBody (m : Model) (locals : List String) (body : Code) : Prop where
  reads : ∀ n ∈ body.reads, m.isVariable n = true ∨ assigns body n = true
  writes : ∀ n ∈ body.writes,
    n.text ∈ locals ∨ ∃ cls, m.lookup? n.text = some cls ∧ cls.isWritable = true
  runs : ∀ n ∈ body.runs, m.lookup? n.text = some .subroutine

/-- Every reference of a model leads somewhere, and the names it does not declare are local. -/
structure Closed (m : Model) (locals : List String) : Prop where
  programs : ∀ p ∈ m.programs, m.ClosedBody locals p.body
  subroutines : ∀ p ∈ m.subroutines, m.ClosedBody locals p.body
  managers : ∀ c ∈ m.managers, ∀ p ∈ c.programs, m.lookup? p.text = some .program
  trends : ∀ t ∈ m.trends, ∃ cls, m.lookup? t.source.text = some cls ∧ isLogged cls = true
  outputs : ∀ o ∈ m.outputs, ∃ cls, m.lookup? o.source.text = some cls ∧ cls.isVariable = true
  used : ∀ l ∈ locals, ∃ p ∈ m.programs ++ m.subroutines, ∃ n ∈ p.body.writes, n.text = l

/-- What the names in a body with these local names may be used for. -/
def scope (m : Model) (locals : List String) : Scope where
  reads w := (m.lookup? w).any NameClass.isVariable = true ∨ w ∈ locals
  writes w := w ∈ locals ∨ ∃ cls, m.lookup? w = some cls ∧ cls.isWritable = true
  runs w := m.lookup? w = some .subroutine

/-- A declared variable may be read. -/
theorem Declares.reads {m : Model} {name : String} {cls : NameClass} (h : m.Declares name cls)
    (isVariable : cls.isVariable = true) (locals : List String) : (m.scope locals).reads name := by
  refine .inl ?_
  rw [h.found]
  exact isVariable

/-- A declared name that may be assigned to. -/
theorem Declares.writes {m : Model} {name : String} {cls : NameClass} (h : m.Declares name cls)
    (isWritable : cls.isWritable = true) (locals : List String) :
    (m.scope locals).writes name :=
  .inr ⟨cls, h.found, isWritable⟩

/-- The text of a declared variable reads the variable. -/
theorem Declares.reads_words {m : Model} {name : String} {cls : NameClass}
    (h : m.Declares name cls) (isVariable : cls.isVariable = true) (locals : List String) :
    ∀ w ∈ words name.toList, isReserved w = false → (m.scope locals).reads w := by
  intro w hw _
  rw [words_word_end h.word, List.mem_singleton] at hw
  rw [hw]
  exact h.reads isVariable locals

/-- A body whose lines stay within the scope of its local names, each of which it assigns to. -/
theorem closedBody_of_within {m : Model} {own locals : List String} {body : Code}
    (within : ∀ s ∈ body.statements, s.Within (m.scope own))
    (assigned : ∀ l ∈ own, ∃ s ∈ body.statements, ∃ n, s.target? = some n ∧ n.text = l)
    (sub : own ⊆ locals) : m.ClosedBody locals body where
  reads n hn := by
    obtain ⟨s, hs, word⟩ := Code.exists_of_mem_reads hn
    rcases (within s hs).reads n.text word n.not_isReserved with declared | isOwn
    · exact .inl declared
    · obtain ⟨t, ht, k, target, same⟩ := assigned n.text isOwn
      have writes : k ∈ body.writes := Code.mem_writes_iff.2 ⟨t, ht, target⟩
      have keys : (k.key == n.key) = true := by simp [Name.key, same]
      exact .inr (List.any_eq_true.2 ⟨k, writes, keys⟩)
  writes n hn := by
    obtain ⟨s, hs, target⟩ := Code.mem_writes_iff.1 hn
    exact ((within s hs).writes n target).imp_left (sub ·)
  runs n hn := by
    obtain ⟨s, hs, subroutine⟩ := Code.exists_of_mem_runs hn
    exact (within s hs).runs n subroutine

theorem checkReference_eq_ok_iff {m : Model} {place : Place} {accept : NameClass → Bool}
    {name : Name} : m.checkReference place accept name = .ok () ↔
      ∃ cls, m.lookup? name.text = some cls ∧ accept cls = true := by
  rw [checkReference, ← Option.any_eq_true]
  split <;> simp_all

theorem checkReference_eq_ok {m : Model} {place : Place} {accept : NameClass → Bool} {name : Name}
    {cls : NameClass} (found : m.lookup? name.text = some cls) (accepts : accept cls = true) :
    m.checkReference place accept name = .ok () :=
  checkReference_eq_ok_iff.2 ⟨cls, found, accepts⟩

theorem checkRead_eq_ok_iff {m : Model} {place : Place} {body : Code} {name : Name} :
    m.checkRead place body name = .ok () ↔
      m.isVariable name = true ∨ assigns body name = true := by
  rw [checkRead, ← Bool.or_eq_true]
  split <;> simp_all

theorem checkWrite_eq_ok_iff {m : Model} {place : Place} {name : Name} :
    m.checkWrite place name = .ok () ↔
      ∀ cls, m.lookup? name.text = some cls → cls.isWritable = true := by
  unfold checkWrite
  cases m.lookup? name.text with
  | none => simp
  | some cls => simp

theorem checkWrite_eq_error {m : Model} {place : Place} {name : Name} {fault : Fault}
    (h : m.checkWrite place name = .error fault) :
    ∃ cls, m.lookup? name.text = some cls ∧ cls.isWritable = false ∧
      fault = .readOnly name.text place cls := by
  unfold checkWrite at h
  split at h
  · cases h
  · next cls found =>
    split at h
    · cases h
    · next readOnly =>
      cases h
      exact ⟨cls, found, by simpa using readOnly, rfl⟩

/-- A closed body is in order exactly when all it assigns to may be assigned to. -/
theorem ClosedBody.checkBody_eq_ok_iff {m : Model} {locals : List String} {body : Code}
    (h : m.ClosedBody locals body) {place : Place} :
    m.checkBody place body = .ok () ↔
      ∀ n ∈ body.writes, ∀ cls, m.lookup? n.text = some cls → cls.isWritable = true := by
  have reads : allOk (m.checkRead place body) body.reads = .ok () :=
    allOk_eq_ok_iff.2 fun n hn => checkRead_eq_ok_iff.2 (h.reads n hn)
  have runs : allOk (m.checkReference place (· == .subroutine)) body.runs = .ok () :=
    allOk_eq_ok_iff.2 fun n hn => checkReference_eq_ok (h.runs n hn) rfl
  rw [checkBody, check_bind_eq_ok_iff, check_bind_eq_ok_iff]
  simp only [reads, runs, true_and, and_true, allOk_eq_ok_iff, checkWrite_eq_ok_iff]

/-- A fault in a closed body is an assignment to a local name that stands for something. -/
theorem ClosedBody.checkBody_eq_error {m : Model} {locals : List String} {body : Code}
    (h : m.ClosedBody locals body) {place : Place} {fault : Fault}
    (failed : m.checkBody place body = .error fault) :
    ∃ l ∈ locals, ∃ cls, m.lookup? l = some cls ∧ cls.isWritable = false ∧
      fault = .readOnly l place cls := by
  rcases check_bind_eq_error failed with failed | failed
  · obtain ⟨n, hn, hf⟩ := exists_of_allOk_eq_error failed
    rw [checkRead_eq_ok_iff.2 (h.reads n hn)] at hf
    cases hf
  rcases check_bind_eq_error failed with failed | failed
  · obtain ⟨n, hn, hf⟩ := exists_of_allOk_eq_error failed
    obtain ⟨cls, found, readOnly, rfl⟩ := checkWrite_eq_error hf
    -- what is declared may be assigned to, so the name is local
    rcases h.writes n hn with isLocal | ⟨other, declared, writable⟩
    · exact ⟨n.text, isLocal, cls, found, readOnly, rfl⟩
    · rw [found] at declared
      cases declared
      rw [readOnly] at writable
      cases writable
  · obtain ⟨n, hn, hf⟩ := exists_of_allOk_eq_error failed
    rw [checkReference_eq_ok (h.runs n hn) rfl] at hf
    cases hf

/-- The references outside bodies of a closed model are in order. -/
theorem Closed.checkReferences {m : Model} {locals : List String} (h : m.Closed locals) :
    allOk (fun c => allOk (m.checkReference (.manager c.name) (· == .program)) c.programs)
        m.managers = .ok () ∧
      allOk (fun t => m.checkReference (.trend t.name.text) isLogged t.source) m.trends = .ok () ∧
      allOk (fun o => m.checkReference (.output o.name) NameClass.isVariable o.source) m.outputs =
        .ok () := by
  refine ⟨allOk_eq_ok_iff.2 fun c hc => ?_, allOk_eq_ok_iff.2 fun t ht => ?_,
    allOk_eq_ok_iff.2 fun o ho => ?_⟩
  · exact allOk_eq_ok_iff.2 fun p hp => checkReference_eq_ok (h.managers c hc p hp) rfl
  · obtain ⟨cls, found, logged⟩ := h.trends t ht
    exact checkReference_eq_ok found logged
  · obtain ⟨cls, found, isVariable⟩ := h.outputs o ho
    exact checkReference_eq_ok found isVariable

/-- A closed model is in order exactly when no local name is that of an object that may not be
    assigned to. -/
theorem Closed.check_eq_ok_iff {m : Model} {locals : List String} (h : m.Closed locals) :
    m.check = .ok () ↔ ∀ l ∈ locals, ∀ cls, m.lookup? l = some cls → cls.isWritable = true := by
  obtain ⟨managers, trends, outputs⟩ := h.checkReferences
  have bodies : m.check = .ok () ↔
      (∀ p ∈ m.programs, m.checkBody (.program p.name.text) p.body = .ok ()) ∧
        ∀ p ∈ m.subroutines, m.checkBody (.subroutine p.name.text) p.body = .ok () := by
    rw [check]
    simp only [check_bind_eq_ok_iff, managers, trends, outputs, and_true, allOk_eq_ok_iff]
  rw [bodies]
  constructor
  · rintro ⟨programs, subroutines⟩ l hl
    obtain ⟨p, hp, n, hn, rfl⟩ := h.used l hl
    rcases List.mem_append.1 hp with hp | hp
    · exact (h.programs p hp).checkBody_eq_ok_iff.1 (programs p hp) n hn
    · exact (h.subroutines p hp).checkBody_eq_ok_iff.1 (subroutines p hp) n hn
  · intro writable
    have body {p : Program} (closed : m.ClosedBody locals p.body) :
        ∀ n ∈ p.body.writes, ∀ cls, m.lookup? n.text = some cls → cls.isWritable = true := by
      intro n hn cls found
      rcases closed.writes n hn with isLocal | ⟨other, declared, may⟩
      · exact writable n.text isLocal cls found
      · rw [found] at declared
        cases declared
        exact may
    exact ⟨fun p hp => (h.programs p hp).checkBody_eq_ok_iff.2 (body (h.programs p hp)),
      fun p hp => (h.subroutines p hp).checkBody_eq_ok_iff.2 (body (h.subroutines p hp))⟩

/-- The one thing that can be wrong with a closed model. -/
theorem Closed.check_eq_error {m : Model} {locals : List String} (h : m.Closed locals)
    {fault : Fault} (failed : m.check = .error fault) :
    ∃ l ∈ locals, ∃ place cls, m.lookup? l = some cls ∧ cls.isWritable = false ∧
      fault = .readOnly l place cls := by
  obtain ⟨managers, trends, outputs⟩ := h.checkReferences
  rcases check_bind_eq_error failed with failed | failed
  · obtain ⟨p, hp, hf⟩ := exists_of_allOk_eq_error failed
    obtain ⟨l, hl, cls, found⟩ := (h.programs p hp).checkBody_eq_error hf
    exact ⟨l, hl, _, cls, found⟩
  rcases check_bind_eq_error failed with failed | failed
  · obtain ⟨p, hp, hf⟩ := exists_of_allOk_eq_error failed
    obtain ⟨l, hl, cls, found⟩ := (h.subroutines p hp).checkBody_eq_error hf
    exact ⟨l, hl, _, cls, found⟩
  simp only [managers, trends, outputs] at failed
  cases failed

end Model

end BuildingControl
