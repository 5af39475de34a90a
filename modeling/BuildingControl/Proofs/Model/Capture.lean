/-
  BuildingControl.Proofs.Model.Capture

  Whether two models that are in order are in order together.  A merge leaves every
  declared name with its meaning (`embedsIn_join_left`, `embedsIn_join_right`), so a
  reference that leads somewhere still does.  What a program assigns to without
  declaring it is local to it, though, and no list of the model holds it: the other
  model may declare a name like it.  Then the program assigns to that object instead,
  and this is the one thing that can go wrong (`check_join_eq_ok_iff`, `check_join_eq_error`).
-/
import BuildingControl.Proofs.Model.Check
import BuildingControl.Proofs.Model.InStep

namespace BuildingControl.Model

open Erl

/-! ## Larger models -/

/-- What a name stands for in the first model it stands for in the second. -/
def EmbedsIn (m n : Model) : Prop :=
  ∀ ⦃text cls⦄, m.lookup? text = some cls → n.lookup? text = some cls

theorem lookup?_join (m n : Model) (text : String) :
    (m.join n).lookup? text = (n.lookup? text).or (m.lookup? text) := rfl

theorem embedsIn_join_right (m n : Model) : n.EmbedsIn (m.join n) := by
  intro text cls found
  rw [lookup?_join, found, Option.some_or]

/-- A name of the first model is none of the second. -/
theorem Apart.lookup?_eq_none {m n : Model} (h : Apart m n) {text : String} {cls : NameClass}
    (found : m.lookup? text = some cls) : n.lookup? text = none := by
  have taken : m.taken (.name (Text.asciiUpper text)) = true := Option.isSome_of_eq_some found
  by_contra other
  have free := h (.name (Text.asciiUpper text)) (Option.isSome_iff_ne_none.2 other)
  rw [taken] at free
  cases free

theorem embedsIn_join_left {m n : Model} (h : Apart m n) : m.EmbedsIn (m.join n) := by
  intro text cls found
  rw [lookup?_join, h.lookup?_eq_none found, Option.none_or, found]

section Embeds

variable {m n : Model} (embeds : m.EmbedsIn n)

include embeds

theorem EmbedsIn.isVariable {name : Name} (h : m.isVariable name = true) :
    n.isVariable name = true := by
  obtain ⟨cls, found, isVariable⟩ := (Option.any_eq_true _ _).1 h
  exact (Option.any_eq_true _ _).2 ⟨cls, embeds found, isVariable⟩

/-- A closed body stays closed in a larger model with more local names. -/
theorem ClosedBody.mono {locals more : List String} {body : Code} (h : m.ClosedBody locals body)
    (sub : locals ⊆ more) : n.ClosedBody more body where
  reads k hk := (h.reads k hk).imp_left embeds.isVariable
  writes k hk := (h.writes k hk).imp (sub ·) fun ⟨cls, found, writable⟩ =>
    ⟨cls, embeds found, writable⟩
  runs k hk := embeds (h.runs k hk)

end Embeds

/-- Closed models are closed together, each with its own local names. -/
theorem Closed.join {m n : Model} {ls ks : List String} (hm : m.Closed ls) (hn : n.Closed ks)
    (apart : Apart m n) : (m.join n).Closed (ls ++ ks) := by
  have left := embedsIn_join_left apart
  have right := embedsIn_join_right m n
  have own : ls ⊆ ls ++ ks := List.subset_append_left ls ks
  have other : ks ⊆ ls ++ ks := List.subset_append_right ls ks
  refine ⟨?_, ?_, ?_, ?_, ?_, ?_⟩
  · exact List.forall_mem_append.2
      ⟨fun p hp => (hm.programs p hp).mono left own, fun p hp => (hn.programs p hp).mono right other⟩
  · exact List.forall_mem_append.2 ⟨fun p hp => (hm.subroutines p hp).mono left own,
      fun p hp => (hn.subroutines p hp).mono right other⟩
  · exact List.forall_mem_append.2 ⟨fun c hc p hp => left (hm.managers c hc p hp),
      fun c hc p hp => right (hn.managers c hc p hp)⟩
  · exact List.forall_mem_append.2
      ⟨fun t ht => (hm.trends t ht).imp fun cls h => h.imp_left (left ·),
        fun t ht => (hn.trends t ht).imp fun cls h => h.imp_left (right ·)⟩
  · exact List.forall_mem_append.2
      ⟨fun o ho => (hm.outputs o ho).imp fun cls h => h.imp_left (left ·),
        fun o ho => (hn.outputs o ho).imp fun cls h => h.imp_left (right ·)⟩
  · refine List.forall_mem_append.2 ⟨fun l hl => ?_, fun l hl => ?_⟩
    · obtain ⟨p, hp, writes⟩ := hm.used l hl
      exact ⟨p, by simp [Model.join] at hp ⊢; tauto, writes⟩
    · obtain ⟨p, hp, writes⟩ := hn.used l hl
      exact ⟨p, by simp [Model.join] at hp ⊢; tauto, writes⟩

/-! ## Local names -/

/-- The names that the bodies of a model assign to and the model does not declare. -/
def localNames (m : Model) : List String :=
  (m.programs ++ m.subroutines).flatMap fun p =>
    (p.body.writes.filter fun n => (m.lookup? n.text).isNone).map Name.text

theorem mem_localNames {m : Model} {l : String} :
    l ∈ m.localNames ↔ ∃ p ∈ m.programs ++ m.subroutines, ∃ n ∈ p.body.writes,
      m.lookup? n.text = none ∧ n.text = l := by
  simp only [localNames, List.mem_flatMap, List.mem_map, List.mem_filter, Option.isNone_iff_eq_none,
    and_assoc]

theorem lookup?_of_mem_localNames {m : Model} {l : String} (h : l ∈ m.localNames) :
    m.lookup? l = none := by
  obtain ⟨_, _, n, _, undeclared, rfl⟩ := mem_localNames.1 h
  exact undeclared

/-- A body that is in order is closed up to its local names. -/
theorem closedBody_of_checkBody {m : Model} {place : Place} {p : Program}
    (hp : p ∈ m.programs ++ m.subroutines) (h : m.checkBody place p.body = .ok ()) :
    m.ClosedBody m.localNames p.body := by
  simp only [checkBody, check_bind_eq_ok_iff, allOk_eq_ok_iff, checkRead_eq_ok_iff,
    checkWrite_eq_ok_iff, checkReference_eq_ok_iff] at h
  obtain ⟨reads, writes, runs⟩ := h
  refine ⟨reads, fun n hn => ?_, fun n hn => ?_⟩
  · cases found : m.lookup? n.text with
    | none => exact .inl (mem_localNames.2 ⟨p, hp, n, hn, found, rfl⟩)
    | some cls => exact .inr ⟨cls, rfl, writes n hn cls found⟩
  · obtain ⟨cls, found, isSubroutine⟩ := runs n hn
    rw [found, beq_iff_eq.1 isSubroutine]

/-- A model that is in order is closed up to its local names. -/
theorem closed_of_check {m : Model} (h : m.check = .ok ()) : m.Closed m.localNames := by
  simp only [check, check_bind_eq_ok_iff, allOk_eq_ok_iff, checkReference_eq_ok_iff] at h
  obtain ⟨programs, subroutines, managers, trends, outputs⟩ := h
  refine ⟨fun p hp => ?_, fun p hp => ?_, fun c hc p hp => ?_, trends, outputs, fun l hl => ?_⟩
  · exact closedBody_of_checkBody (List.mem_append_left _ hp) (programs p hp)
  · exact closedBody_of_checkBody (List.mem_append_right _ hp) (subroutines p hp)
  · obtain ⟨cls, found, isProgram⟩ := managers c hc p hp
    rw [found, beq_iff_eq.1 isProgram]
  · obtain ⟨p, hp, n, hn, -, named⟩ := mem_localNames.1 hl
    exact ⟨p, hp, n, hn, named⟩

/-! ## Captured names -/

/-- A program or subroutine of a model assigns to a name that the model does not declare, and
    another model declares the name as something that may not be assigned to. -/
def Captured (m other : Model) : Prop :=
  ∃ p ∈ m.programs ++ m.subroutines, ∃ s ∈ p.body.statements, ∃ n, s.target? = some n ∧
    (∀ e ∈ m.declared, Text.sameLetters e.1.text n.text = false) ∧
    ∃ e ∈ other.declared, Text.sameLetters e.1.text n.text = true ∧
      e.2 ≠ .actuator ∧ e.2 ≠ .global

theorem isWritable_eq_false_iff {cls : NameClass} :
    cls.isWritable = false ↔ cls ≠ .actuator ∧ cls ≠ .global := by
  cases cls <;> simp [NameClass.isWritable]

theorem Coherent.lookup?_eq_none_iff {m : Model} (h : Coherent m) {text : String} :
    m.lookup? text = none ↔ ∀ e ∈ m.declared, Text.sameLetters e.1.text text = false := by
  rw [Option.eq_none_iff_forall_ne_some]
  simp only [ne_eq, h.lookup?_eq_some_iff]
  constructor
  · intro none e he
    by_contra same
    exact none e.2 ⟨e, he, by simpa using same, rfl⟩
  · rintro none cls ⟨e, he, same, -⟩
    rw [none e he] at same
    cases same

/-- A name is captured when it is local here and stands for something read-only there. -/
theorem captured_iff {m other : Model} (hm : Coherent m) (ho : Coherent other) :
    m.Captured other ↔
      ∃ l ∈ m.localNames, ∃ cls, other.lookup? l = some cls ∧ cls.isWritable = false := by
  constructor
  · rintro ⟨p, hp, s, hs, n, target, undeclared, e, he, same, readOnly⟩
    have isLocal : n.text ∈ m.localNames := mem_localNames.2
      ⟨p, hp, n, Code.mem_writes_iff.2 ⟨s, hs, target⟩, hm.lookup?_eq_none_iff.2 undeclared, rfl⟩
    exact ⟨n.text, isLocal, e.2, ho.lookup?_eq_some_iff.2 ⟨e, he, same, rfl⟩,
      isWritable_eq_false_iff.2 readOnly⟩
  · rintro ⟨l, hl, cls, found, readOnly⟩
    obtain ⟨p, hp, n, hn, undeclared, rfl⟩ := mem_localNames.1 hl
    obtain ⟨s, hs, target⟩ := Code.mem_writes_iff.1 hn
    obtain ⟨e, he, same, rfl⟩ := ho.lookup?_eq_some_iff.1 found
    exact ⟨p, hp, s, hs, n, target, hm.lookup?_eq_none_iff.1 undeclared, e, he, same,
      isWritable_eq_false_iff.1 readOnly⟩

/-- No name is captured when all local names that the other model declares may be assigned to. -/
theorem not_captured_iff {m other : Model} (hm : Coherent m) (ho : Coherent other) :
    ¬ m.Captured other ↔
      ∀ l ∈ m.localNames, ∀ cls, other.lookup? l = some cls → cls.isWritable = true := by
  rw [captured_iff hm ho]
  simp only [not_exists, not_and, Bool.not_eq_false]

/-! ## Models in order together -/

section Join

variable {m n : Model} (hm : Coherent m) (hn : Coherent n) (apart : Apart m n)
  (checkedLeft : m.check = .ok ()) (checkedRight : n.check = .ok ())

include apart checkedLeft checkedRight

theorem closed_join : (m.join n).Closed (m.localNames ++ n.localNames) :=
  (closed_of_check checkedLeft).join (closed_of_check checkedRight) apart

/-- All that can be wrong with two models in order is an assignment to something read-only. -/
theorem check_join_eq_error {fault : Fault} (h : (m.join n).check = .error fault) :
    ∃ name place cls, fault = .readOnly name place cls := by
  obtain ⟨l, -, place, cls, -, -, rfl⟩ :=
    (closed_join apart checkedLeft checkedRight).check_eq_error h
  exact ⟨l, place, cls, rfl⟩

include hm hn

/-- Two models in order are in order together exactly when neither captures a name of the other. -/
theorem check_join_eq_ok_iff :
    (m.join n).check = .ok () ↔ ¬ (m.Captured n ∨ n.Captured m) := by
  rw [(closed_join apart checkedLeft checkedRight).check_eq_ok_iff, List.forall_mem_append, not_or,
    not_captured_iff hm hn, not_captured_iff hn hm]
  -- a local name of one model stands for what it stands for in the other
  refine and_congr (forall₂_congr fun l hl => ?_) (forall₂_congr fun l hl => ?_)
  · rw [lookup?_join, lookup?_of_mem_localNames hl, Option.or_none]
  · rw [lookup?_join, lookup?_of_mem_localNames hl, Option.none_or]

end Join

end BuildingControl.Model
