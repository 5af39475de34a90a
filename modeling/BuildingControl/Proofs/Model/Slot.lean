/-
  BuildingControl.Proofs.Model.Slot

  What decides whether an object may be added.  An object is valid on its own
  when its texts fit one field; beyond that it needs a free slot: a name among
  variables, programs and subroutines, among calling managers, or among reported
  outputs.  The three spaces of names are one type of slots here, so that each
  fact about names in use is stated once.

  `declare_eq_ok_iff` is the whole of what adding an object can do, and
  `declareAll_eq_ok_iff` the same for a list of objects.
-/
import BuildingControl.Checking
import BuildingControl.Proofs.Model.Kind

namespace BuildingControl.Model

open Erl

/-! ## Slots -/

/-- A place that one object at a time can take. -/
inductive Slot
  | name (key : String)
  | manager (key : String)
  | output (key : String)
  deriving DecidableEq

/-- Whether a slot is taken. -/
def taken (m : Model) : Slot → Bool
  | .name key => (m.names.find? key).isSome
  | .manager key => m.managerNames.contains key
  | .output key => m.outputNames.contains key

/-- The name that an object declares, and what it stands for. -/
def Declaration.binding? : Declaration → Option (Name × NameClass)
  | .sensor s => some (s.name, .sensor)
  | .actuator a => some (a.name, .actuator)
  | .global name => some (name, .global)
  | .trend t => some (t.name, .trend)
  | .internal v => some (v.name, .internal)
  | .construction c => some (c.name, .constructionIndex)
  | .program p => some (p.name, .program)
  | .subroutine p => some (p.name, .subroutine)
  | .output _ => none
  | .manager _ => none
  | .request _ => none

/-- The slot that an object takes; requests take none. -/
def Declaration.slot? : Declaration → Option Slot
  | .output o => some (.output (Text.upper o.name))
  | .manager c => some (.manager (Text.upper c.name))
  | d => d.binding?.map fun e => .name e.1.key

theorem Declaration.slot?_of_binding? {d : Declaration} {e : Name × NameClass}
    (h : d.binding? = some e) : d.slot? = some (.name e.1.key) := by
  cases d <;> simp_all [binding?, slot?]

/-- Requests declare no name. -/
theorem Declaration.kind_of_binding? (d : Declaration) {e : Name × NameClass}
    (h : d.binding? = some e) : d.kind ≠ .request := by
  rintro request
  cases d <;> cases request
  cases h

/-- Only declared names take slots of the common space of names. -/
theorem Declaration.binding?_of_slot? {d : Declaration} {key : String}
    (h : d.slot? = some (.name key)) : ∃ e, d.binding? = some e ∧ e.1.key = key := by
  cases d <;> simp_all [binding?, slot?]

/-! ## Valid objects -/

/-- The texts of an object that have to fit one field. -/
def Declaration.fields : Declaration → List (HostField × String)
  | .sensor s => [(.sensorKey, s.key), (.sensorOutput, s.output)]
  | .actuator a =>
    [(.component, a.component), (.componentType, a.componentType), (.controlType, a.control)]
  | .internal v => [(.internalKey, v.key), (.internalType, v.dataType)]
  | .construction c => [(.construction, c.construction)]
  | .output o => [(.outputName, o.name), (.outputUnits, o.units.getD "")]
  | .manager c => [(.managerName, c.name)]
  | .request r => [(.requestKey, r.key), (.requestVariable, r.variableName)]
  | _ => []

/-- Whether an object can be part of a model at all. -/
structure Declaration.Valid (d : Declaration) : Prop where
  fields : ∀ f ∈ d.fields, fieldReason? f.2 = none
  logged : ∀ t, d = .trend t → t.timesteps ≠ 0

/-- Whether the slot of an object is free. -/
def Free (m : Model) (d : Declaration) : Prop :=
  ∀ s, d.slot? = some s → m.taken s = false

theorem refuseIf_eq_ok_iff {condition : Bool} {fault : Fault} :
    refuseIf condition fault = .ok () ↔ condition = false := by
  cases condition <;> simp [refuseIf]

theorem requireField_eq_ok_iff {field : HostField} {value : String} :
    requireField field value = .ok () ↔ fieldReason? value = none := by
  unfold requireField
  split <;> simp_all

theorem requireFree_eq_ok_iff {m : Model} {name : Name} :
    m.requireFree name = .ok () ↔ m.taken (.name name.key) = false :=
  refuseIf_eq_ok_iff

/-- An object is admitted exactly when it is valid and its slot is free. -/
theorem admit?_eq_ok_iff {m : Model} {d : Declaration} :
    m.admit? d = .ok () ↔ d.Valid ∧ m.Free d := by
  have valid : d.Valid ↔
      (∀ f ∈ d.fields, fieldReason? f.2 = none) ∧ ∀ t, d = .trend t → t.timesteps ≠ 0 :=
    ⟨fun h => ⟨h.fields, h.logged⟩, fun h => ⟨h.1, h.2⟩⟩
  rw [valid]
  -- every kind checks its texts, then the one slot it takes
  cases d <;>
    simp [admit?, check_bind_eq_ok_iff, requireField_eq_ok_iff, requireFree_eq_ok_iff,
      refuseIf_eq_ok_iff, Declaration.fields, Declaration.slot?, Declaration.binding?, Free, taken,
      hasOutput, hasManager, and_assoc]

/-- All that adding an object can do. -/
theorem declare_eq_ok_iff {m n : Model} {d : Declaration} :
    m.declare d = .ok n ↔ d.Valid ∧ m.Free d ∧ m.push d = n := by
  rw [declare, map_eq_ok_iff, ← and_assoc, ← admit?_eq_ok_iff]
  exact ⟨fun ⟨_, h⟩ => h, fun h => ⟨(), h⟩⟩

/-! ## Adding objects -/

theorem taken_empty (s : Slot) : empty.taken s = false := by
  cases s <;> rfl

/-- An added object takes its slot, and no slot is given back. -/
@[simp] theorem taken_push (m : Model) (d : Declaration) (s : Slot) :
    (m.push d).taken s = (decide (d.slot? = some s) || m.taken s) := by
  have isSome_insert (key k : String) (cls : NameClass) (old : Option NameClass) :
      (if key = k then some cls else old).isSome = (decide (key = k) || old.isSome) := by
    by_cases h : key = k <;> simp [h]
  cases d with
  | request r =>
    -- kept or dropped, a request takes no slot
    have same : (m.push (.request r)).taken s = m.taken s := by
      simp only [push]
      split <;> cases s <;> rfl
    simp [same, Declaration.slot?, Declaration.binding?]
  | _ =>
    cases s <;>
      simp [push, register, taken, Declaration.slot?, Declaration.binding?,
        isSome_insert, Bool.beq_eq_decide_eq]

theorem taken_foldl_push (m : Model) (ds : List Declaration) (s : Slot) :
    (ds.foldl push m).taken s = (decide (∃ d ∈ ds, d.slot? = some s) || m.taken s) := by
  induction ds generalizing m with
  | nil => simp
  | cons d ds ih =>
    rw [List.foldl_cons, ih, taken_push]
    by_cases h : d.slot? = some s <;> simp [h]

/-- A declared name stands for what was declared last under its key. -/
theorem names_push (m : Model) (d : Declaration) (key : String) :
    (m.push d).names.find? key =
      match d.binding? with
      | some e => if e.1.key = key then some e.2 else m.names.find? key
      | none => m.names.find? key := by
  cases d with
  | request r => simp only [push, Declaration.binding?]; split <;> rfl
  | _ => rfl

/-- Objects come in together exactly when they are valid, their slots are pairwise different and
    all of these slots are free. -/
theorem declareAll_eq_ok_iff {m n : Model} {ds : List Declaration} :
    m.declareAll ds = (n, .ok ()) ↔ (∀ d ∈ ds, d.Valid) ∧
      (ds.filterMap Declaration.slot?).Nodup ∧ (∀ d ∈ ds, m.Free d) ∧ ds.foldl push m = n := by
  induction ds generalizing m with
  | nil => simp [declareAll]
  | cons d ds ih =>
    -- the slots of later objects are free once `d` is in when they were free and differ from its
    have later : (∀ e ∈ ds, (m.push d).Free e) ↔
        (∀ s, d.slot? = some s → s ∉ ds.filterMap Declaration.slot?) ∧ ∀ e ∈ ds, m.Free e := by
      constructor
      · intro h
        refine ⟨fun s hs hm => ?_, fun e he s hs => ?_⟩
        · obtain ⟨e, he, hes⟩ := List.mem_filterMap.1 hm
          have := h e he s hes
          simp [hs] at this
        · have := h e he s hs
          rw [taken_push, Bool.or_eq_false_iff] at this
          exact this.2
      · rintro ⟨other, free⟩ e he s hs
        have ne : d.slot? ≠ some s := fun hd => other s hd (List.mem_filterMap.2 ⟨e, he, hs⟩)
        rw [taken_push, Bool.or_eq_false_iff]
        exact ⟨decide_eq_false ne, free e he s hs⟩
    have nodup : ((d :: ds).filterMap Declaration.slot?).Nodup ↔
        (∀ s, d.slot? = some s → s ∉ ds.filterMap Declaration.slot?) ∧
          (ds.filterMap Declaration.slot?).Nodup := by
      cases hd : d.slot? with
      | none => simp [hd]
      | some s => rw [List.filterMap_cons_some hd, List.nodup_cons]; simp
    have first : (∃ k, m.declare d = .ok k) ↔ d.Valid ∧ m.Free d := by
      simp only [declare_eq_ok_iff, exists_and_left]
      exact ⟨fun h => ⟨h.1, h.2.1⟩, fun h => ⟨h.1, h.2, _, rfl⟩⟩
    rw [nodup, List.forall_mem_cons, List.forall_mem_cons, List.foldl_cons, declareAll]
    cases hd : m.declare d with
    | ok k =>
      obtain ⟨valid, free, rfl⟩ := declare_eq_ok_iff.1 hd
      simp only [ih, later]
      tauto
    | error fault =>
      -- the first object is refused, so one of its two conditions fails
      have refused : ¬ (d.Valid ∧ m.Free d) := fun h => by
        obtain ⟨k, hk⟩ := first.2 h
        rw [hd] at hk
        cases hk
      simp only [Prod.mk.injEq, reduceCtorEq, and_false, false_iff]
      tauto

end BuildingControl.Model
