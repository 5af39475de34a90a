/-
  BuildingControl.Proofs.Measure.Alike

  Models that differ in the order of their objects, and in how their calling managers
  are spelled and group the programs (`Alike`).  Nothing that is done to a model
  afterwards can tell the difference: the same objects can be added, in any order
  (`Alike.declareAll`), the same measures applied (`Alike.applyBatch`), and one is in
  order when the other is (`Alike.check_iff`).
-/
import BuildingControl.Proofs.Measure.Reachable
import BuildingControl.Proofs.Model.Check
import BuildingControl.Proofs.Model.InStep

namespace BuildingControl

open Erl

namespace Model

/-- Two models with the same objects but for their calling managers and requests, the same programs
    run by some manager, and the same names in use. -/
structure Alike (m n : Model) : Prop where
  objects : ∀ d : Declaration, d.kind ≠ .manager → d.kind ≠ .request →
    (d ∈ m.declarations ↔ d ∈ n.declarations)
  runs : ∀ k, (∃ c ∈ m.managers, k ∈ c.programs) ↔ ∃ c ∈ n.managers, k ∈ c.programs
  taken : ∀ s, m.taken s = n.taken s

namespace Alike

variable {m n : Model} (alike : Alike m n)

include alike

/-- The objects of one kind are the same. -/
theorem mem_objects {d : Declaration} {k : ObjectKind} (kind : d.kind = k)
    (manager : k ≠ .manager) (request : k ≠ .request) : d ∈ m.objects k ↔ d ∈ n.objects k := by
  subst kind
  rw [← mem_declarations, ← mem_declarations]
  exact alike.objects d manager request

/-! ## More objects -/

theorem apart_iff (o : Model) : Apart m o ↔ Apart n o := by
  simp only [Apart, alike.taken]

/-- The same objects joined to both. -/
theorem join (o : Model) : Alike (m.join o) (n.join o) where
  objects d manager request := by
    have same := alike.mem_objects rfl manager request
    rw [mem_declarations, mem_declarations]
    rw [objects_join m o request, objects_join n o request, List.mem_append, List.mem_append, same]
  runs k := by
    show (∃ c ∈ m.managers ++ o.managers, _) ↔ ∃ c ∈ n.managers ++ o.managers, _
    simp only [List.mem_append, or_and_right, exists_or, alike.runs k]
  taken s := by
    rw [taken_join, taken_join, alike.taken]

theorem foldl_join (os : List Model) : Alike (os.foldl Model.join m) (os.foldl Model.join n) := by
  induction os generalizing m n with
  | nil => exact alike
  | cons o os ih => exact ih (alike.join o)

/-- The same objects added to both, in any order. -/
theorem foldl_push {ds es : List Declaration} (perm : ds.Perm es) :
    Alike (ds.foldl push m) (es.foldl push n) where
  objects d manager request := by
    have same := alike.mem_objects rfl manager request
    rw [mem_declarations, mem_declarations]
    rw [foldl_push_objects m ds request, foldl_push_objects n es request, List.mem_append,
      List.mem_append, same, (perm.filter _).mem_iff]
  runs k := by
    have managers (l : Model) (fs : List Declaration) :
        (∃ c ∈ (fs.foldl push l).managers, k ∈ c.programs) ↔
          (∃ c ∈ l.managers, k ∈ c.programs) ∨ ∃ c, Declaration.manager c ∈ fs ∧ k ∈ c.programs := by
      have mem (c : CallingManager) : c ∈ (fs.foldl push l).managers ↔
          c ∈ l.managers ∨ Declaration.manager c ∈ fs := by
        have listed := foldl_push_objects l fs (k := .manager) nofun
        have both : Declaration.manager c ∈ (fs.foldl push l).objects .manager ↔
            Declaration.manager c ∈ l.objects .manager ∨ Declaration.manager c ∈ fs := by
          rw [listed, List.mem_append, List.mem_filter]
          simp [Declaration.kind]
        simpa [Model.objects] using both
      simp only [mem, or_and_right, exists_or]
    rw [managers, managers, alike.runs k]
    simp only [perm.mem_iff]
  taken s := by
    rw [taken_foldl_push, taken_foldl_push, alike.taken]
    simp only [perm.mem_iff]

/-- What one of them takes the other takes in any order. -/
theorem declareAll {ds es : List Declaration} (perm : ds.Perm es) {l : Model}
    (h : m.declareAll ds = (l, .ok ())) : ∃ k, n.declareAll es = (k, .ok ()) ∧ Alike l k := by
  obtain ⟨valid, apart, free, rfl⟩ := declareAll_eq_ok_iff.1 h
  refine ⟨es.foldl push n, declareAll_eq_ok_iff.2 ⟨?_, ?_, ?_, rfl⟩, alike.foldl_push perm⟩
  · intro d hd
    exact valid d (perm.mem_iff.2 hd)
  · exact (perm.filterMap _).nodup_iff.1 apart
  · intro d hd s hs
    rw [← alike.taken]
    exact free d (perm.mem_iff.2 hd) s hs

/-- A batch of measures that can be applied to one can be applied to the other. -/
theorem applyBatch {measures : List Measure} {a next : Numbering} {l : Model}
    (h : Measure.applyBatch m measures a = (l, .ok next)) :
    ∃ k, Measure.applyBatch n measures a = (k, .ok next) ∧ Alike l k := by
  simp only [Measure.applyBatch_eq_ok_iff, Measure.applyEach_eq_ok_iff] at h ⊢
  obtain ⟨os, built, aparts, pairs, rfl⟩ := h
  refine ⟨_, ⟨os, built, fun o ho => ?_, pairs, rfl⟩, alike.foldl_join os⟩
  exact (alike.apart_iff o).1 (aparts o ho)

/-! ## The check -/

section Check

variable (hm : Coherent m) (hn : Coherent n)

include hm hn

/-- A name stands for the same in both. -/
theorem lookup?_eq (text : String) : m.lookup? text = n.lookup? text := by
  have same (e : Name × NameClass) : e ∈ m.declared ↔ e ∈ n.declared := by
    rw [mem_declared, mem_declared]
    refine exists_congr fun d => and_congr_left fun binding => ?_
    refine alike.objects d ?_ (d.kind_of_binding? binding)
    -- managers declare no name
    intro manager
    cases d <;> cases manager
    cases binding
  ext cls
  rw [hm.lookup?_eq_some_iff, hn.lookup?_eq_some_iff]
  simp only [same]

theorem checkBody_eq (place : Place) (body : Code) :
    m.checkBody place body = n.checkBody place body := by
  have found := alike.lookup?_eq hm hn
  have reads : m.checkRead place body = n.checkRead place body := by
    funext name
    rw [checkRead, checkRead, isVariable, isVariable, found]
  have writes : m.checkWrite place = n.checkWrite place := by
    funext name
    rw [checkWrite, checkWrite, found]
  have runs : m.checkReference place (· == .subroutine) =
      n.checkReference place (· == .subroutine) := by
    funext name
    rw [checkReference, checkReference, found]
  rw [checkBody, checkBody, reads, writes, runs]

/-- One is in order exactly when the other is. -/
theorem check_iff : m.check = .ok () ↔ n.check = .ok () := by
  have found := alike.lookup?_eq hm hn
  have programs (q : Program) : q ∈ m.programs ↔ q ∈ n.programs := by
    simpa [Model.objects] using
      alike.mem_objects (d := .program q) (k := .program) rfl (by decide) (by decide)
  have subroutines (q : Program) : q ∈ m.subroutines ↔ q ∈ n.subroutines := by
    simpa [Model.objects] using
      alike.mem_objects (d := .subroutine q) (k := .subroutine) rfl (by decide) (by decide)
  have trends (t : Trend) : t ∈ m.trends ↔ t ∈ n.trends := by
    simpa [Model.objects] using
      alike.mem_objects (d := .trend t) (k := .trend) rfl (by decide) (by decide)
  have outputs (o : OutputVariable) : o ∈ m.outputs ↔ o ∈ n.outputs := by
    simpa [Model.objects] using
      alike.mem_objects (d := .output o) (k := .output) rfl (by decide) (by decide)
  -- what holds of every program that is run does not depend on the manager that runs it
  have managers (P : Name → Prop) : (∀ c ∈ m.managers, ∀ k ∈ c.programs, P k) ↔
      ∀ c ∈ n.managers, ∀ k ∈ c.programs, P k := by
    have each (l : Model) : (∀ c ∈ l.managers, ∀ k ∈ c.programs, P k) ↔
        ∀ k, (∃ c ∈ l.managers, k ∈ c.programs) → P k := by
      constructor
      · rintro h k ⟨c, hc, hk⟩
        exact h c hc k hk
      · intro h c hc k hk
        exact h k ⟨c, hc, hk⟩
    rw [each m, each n]
    simp only [alike.runs]
  simp only [check, check_bind_eq_ok_iff, allOk_eq_ok_iff, programs, subroutines, trends, outputs,
    alike.checkBody_eq hm hn, checkReference_eq_ok_iff, found]
  rw [managers]

end Check

end Alike

end Model

end BuildingControl
