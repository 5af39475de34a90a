/-
  BuildingControl.Proofs.Measure.Resolved

  When the check of a model passes, said of its lists of objects alone.  The
  check looks every reference up in the names in use; `Resolved` asks instead for
  an object of the right kind whose name is the reference, the case of letters
  aside.  For a model that a session can come to the two agree in both directions
  (`check_eq_ok_iff_resolved`).

  Everything rests on one lemma: a name is looked up as something acceptable
  exactly when it is among the names of the acceptable objects
  (`Coherent.among_iff`).
-/
import BuildingControl.Proofs.Measure.Session
import BuildingControl.Proofs.Model.Check
import BuildingControl.Proofs.Model.InStep

namespace BuildingControl.Model

open Erl

/-! ## Names of objects -/

/-- Whether a name is one of these, the case of letters aside. -/
def Among (names : List Name) (n : Name) : Prop :=
  ∃ k ∈ names, Text.sameLetters k.text n.text = true

/-- The names of what may be assigned to. -/
def writableNames (m : Model) : List Name :=
  m.actuators.map Actuator.name ++ m.globals

/-- The names of what a trend may log. -/
def loggedNames (m : Model) : List Name :=
  m.sensors.map Sensor.name ++ m.globals

/-- The names of the variables of a model. -/
def variableNames (m : Model) : List Name :=
  m.sensors.map Sensor.name ++ m.writableNames ++ m.trends.map Trend.name ++
    m.internals.map InternalVariable.name ++ m.constructions.map ConstructionIndex.name

/-- The names of all objects that have one in the common space of names. -/
def objectNames (m : Model) : List Name :=
  m.variableNames ++ m.programs.map Program.name ++ m.subroutines.map Program.name

/-! ## Resolved models -/

/-- Every reference of a body is the name of an object of the right kind. -/
structure ResolvedBody (m : Model) (body : Code) : Prop where
  reads : ∀ n ∈ body.reads, Among m.variableNames n ∨ Among body.writes n
  /-- A name that no object carries is local to the body. -/
  writes : ∀ n ∈ body.writes, Among m.objectNames n → Among m.writableNames n
  runs : ∀ n ∈ body.runs, Among (m.subroutines.map Program.name) n

/-- Every reference of a model is the name of an object of the right kind. -/
structure Resolved (m : Model) : Prop where
  bodies : ∀ p ∈ m.programs ++ m.subroutines, m.ResolvedBody p.body
  managers : ∀ c ∈ m.managers, ∀ n ∈ c.programs, Among (m.programs.map Program.name) n
  trends : ∀ t ∈ m.trends, Among m.loggedNames t.source
  outputs : ∀ o ∈ m.outputs, Among m.variableNames o.source

/-- What a body assigns to, by the names themselves. -/
theorem assigns_iff {body : Code} {n : Name} : assigns body n = true ↔ Among body.writes n := by
  simp only [assigns, List.any_eq_true, beq_iff_eq, Among, Text.sameLetters_iff, Name.key]

/-! ## Looking up against looking through -/

/-- Something holds of one of the classes of names. -/
theorem exists_nameClass_iff {P : NameClass → Prop} :
    (∃ cls, P cls) ↔ P .sensor ∨ P .actuator ∨ P .global ∨ P .trend ∨ P .internal ∨
      P .constructionIndex ∨ P .program ∨ P .subroutine := by
  constructor
  · rintro ⟨cls, h⟩
    cases cls <;> simp only [h, true_or, or_true]
  · rintro (h | h | h | h | h | h | h | h) <;> exact ⟨_, h⟩

section Coherent

variable {m : Model} (h : Coherent m)

include h

/-- A name stands for something acceptable exactly when it is among the names of the acceptable
    objects. -/
theorem Coherent.among_iff {accept : NameClass → Bool} {names : List Name}
    (carried : ∀ k, k ∈ names ↔ ∃ cls, (k, cls) ∈ m.declared ∧ accept cls = true) {n : Name} :
    (∃ cls, m.lookup? n.text = some cls ∧ accept cls = true) ↔ Among names n := by
  simp only [h.lookup?_eq_some_iff]
  constructor
  · rintro ⟨_, ⟨⟨k, cls⟩, declared, same, rfl⟩, accepts⟩
    exact ⟨k, (carried k).2 ⟨cls, declared, accepts⟩, same⟩
  · rintro ⟨k, hk, same⟩
    obtain ⟨cls, declared, accepts⟩ := (carried k).1 hk
    exact ⟨cls, ⟨(k, cls), declared, same, rfl⟩, accepts⟩

theorem Coherent.among_variableNames_iff {n : Name} :
    (∃ cls, m.lookup? n.text = some cls ∧ cls.isVariable = true) ↔ Among m.variableNames n :=
  h.among_iff fun k => by
    simp [exists_nameClass_iff, variableNames, writableNames, declared, NameClass.isVariable]

theorem Coherent.among_writableNames_iff {n : Name} :
    (∃ cls, m.lookup? n.text = some cls ∧ cls.isWritable = true) ↔ Among m.writableNames n :=
  h.among_iff fun k => by
    simp [exists_nameClass_iff, writableNames, declared, NameClass.isWritable]

theorem Coherent.among_loggedNames_iff {n : Name} :
    (∃ cls, m.lookup? n.text = some cls ∧ isLogged cls = true) ↔ Among m.loggedNames n :=
  h.among_iff fun k => by
    simp [exists_nameClass_iff, loggedNames, declared, isLogged]

theorem Coherent.among_objectNames_iff {n : Name} :
    (∃ cls, m.lookup? n.text = some cls) ↔ Among m.objectNames n := by
  have carried (k : Name) : k ∈ m.objectNames ↔
      ∃ cls, (k, cls) ∈ m.declared ∧ (fun _ : NameClass => true) cls = true := by
    simp [exists_nameClass_iff, objectNames, variableNames, writableNames, declared]
  simpa only [and_true] using h.among_iff carried

/-- Programs are one class of names, subroutines another. -/
theorem Coherent.among_programs_iff {n : Name} :
    (∃ cls, m.lookup? n.text = some cls ∧ (cls == .program) = true) ↔
      Among (m.programs.map Program.name) n :=
  h.among_iff fun k => by simp [declared]

theorem Coherent.among_subroutines_iff {n : Name} :
    (∃ cls, m.lookup? n.text = some cls ∧ (cls == .subroutine) = true) ↔
      Among (m.subroutines.map Program.name) n :=
  h.among_iff fun k => by simp [declared]

/-- A name that a body assigns to may be assigned to if any object carries it. -/
theorem Coherent.checkWrite_eq_ok_iff_among {place : Place} {n : Name} :
    m.checkWrite place n = .ok () ↔ (Among m.objectNames n → Among m.writableNames n) := by
  rw [checkWrite_eq_ok_iff, ← h.among_objectNames_iff, ← h.among_writableNames_iff]
  constructor
  · rintro writable ⟨cls, found⟩
    exact ⟨cls, found, writable cls found⟩
  · intro writable cls found
    obtain ⟨other, same, may⟩ := writable ⟨cls, found⟩
    -- a name stands for one thing only
    rw [found] at same
    cases same
    exact may

/-! ## The check -/

/-- The check of a body, wherever the body stands. -/
theorem Coherent.checkBody_eq_ok_iff_resolvedBody {place : Place} {body : Code} :
    m.checkBody place body = .ok () ↔ m.ResolvedBody body := by
  have read (n : Name) : m.isVariable n = true ↔ Among m.variableNames n := by
    rw [← h.among_variableNames_iff, isVariable, Option.any_eq_true]
  rw [checkBody, check_bind_eq_ok_iff, check_bind_eq_ok_iff]
  simp only [allOk_eq_ok_iff, checkRead_eq_ok_iff, checkReference_eq_ok_iff, read, assigns_iff,
    h.checkWrite_eq_ok_iff_among, h.among_subroutines_iff]
  constructor
  · rintro ⟨reads, writes, runs⟩
    exact ⟨reads, writes, runs⟩
  · intro resolved
    exact ⟨resolved.reads, resolved.writes, resolved.runs⟩

end Coherent

/-- The check of a model that a session can come to passes exactly when every reference is the
    name of an object of the right kind. -/
theorem check_eq_ok_iff_resolved {m : Model} (h : m.Reachable) :
    m.check = .ok () ↔ m.Resolved := by
  have coherent := h.coherent
  -- each look-up of the check becomes a search through one of the lists
  rw [check]
  simp only [check_bind_eq_ok_iff, allOk_eq_ok_iff, checkReference_eq_ok_iff,
    coherent.checkBody_eq_ok_iff_resolvedBody, coherent.among_programs_iff,
    coherent.among_loggedNames_iff, coherent.among_variableNames_iff]
  constructor
  · rintro ⟨programs, subroutines, managers, trends, outputs⟩
    refine ⟨fun p hp => ?_, managers, trends, outputs⟩
    rcases List.mem_append.1 hp with hp | hp
    · exact programs p hp
    · exact subroutines p hp
  · intro resolved
    exact ⟨fun p hp => resolved.bodies p (List.mem_append_left _ hp),
      fun p hp => resolved.bodies p (List.mem_append_right _ hp),
      resolved.managers, resolved.trends, resolved.outputs⟩

/-! ### A model with one reference of each kind -/

/-- A heater that is switched by the load; the subroutine adds up the load. -/
def metered : List Declaration :=
  [.sensor ⟨⟨"Load", by decide⟩, "", "Electricity:Facility"⟩,
    .actuator ⟨⟨"Heater", by decide⟩, "Heater", "Schedule:Constant", "Schedule Value"⟩,
    .global ⟨"Total", by decide⟩,
    .trend ⟨⟨"Log", by decide⟩, ⟨"TOTAL", by decide⟩, 4⟩,
    .subroutine ⟨⟨"Add", by decide⟩,
      ⟨[.assign ⟨"total", by decide⟩ ⟨"Total + LOAD", by decide⟩],
        ⟨[⟨"Total", by decide⟩, ⟨"LOAD", by decide⟩], [⟨"total", by decide⟩], []⟩, rfl⟩⟩,
    .program ⟨⟨"Switch", by decide⟩,
      ⟨[.run ⟨"ADD", by decide⟩, .assign ⟨"half", by decide⟩ ⟨"load / 2", by decide⟩,
          .assign ⟨"HEATER", by decide⟩ ⟨"Half", by decide⟩],
        ⟨[⟨"load", by decide⟩, ⟨"Half", by decide⟩], [⟨"half", by decide⟩, ⟨"HEATER", by decide⟩],
          [⟨"ADD", by decide⟩]⟩, rfl⟩⟩,
    .manager ⟨"Heating", .beginTimestepBeforePredictor, [⟨"SWITCH", by decide⟩]⟩,
    .output ⟨"Total Load", ⟨"tOTAL", by decide⟩, .summed, .zoneTimestep, none⟩]

/-- All of its references lead somewhere; without the sensor the load does not. -/
theorem check_metered :
    let whole := (Operation.session .empty (metered.map .add)).1
    let unread := (Operation.session .empty (metered.tail.map .add)).1
    whole.Reachable ∧ whole.check = .ok () ∧ whole.Resolved ∧
      unread.Reachable ∧ unread.check ≠ .ok () ∧ ¬ unread.Resolved := by
  intro whole unread
  have wholeReached : whole.Reachable := Operation.reachable_session .empty _
  have unreadReached : unread.Reachable := Operation.reachable_session .empty _
  have passes : whole.check.toOption = some () := by decide +kernel
  have fails : unread.check.toOption = none := by decide +kernel
  have refused : unread.check ≠ .ok () := by
    intro checked
    rw [checked] at fails
    cases fails
  exact ⟨wholeReached, eq_ok_of_toOption passes,
    (check_eq_ok_iff_resolved wholeReached).1 (eq_ok_of_toOption passes), unreadReached, refused,
    fun resolved => refused ((check_eq_ok_iff_resolved unreadReached).2 resolved)⟩

end BuildingControl.Model
