/-
  BuildingControl.Proofs.Model.Coherent

  The invariant of models: every object is valid, no two objects share a slot,
  the names in use are exactly those of the objects, each with what it stands
  for, and no request is there twice.  The empty model has it, and every way of
  adding objects keeps it, whether it succeeds or stops halfway.
-/
import BuildingControl.Proofs.Model.Slot

namespace BuildingControl.Model

open Erl

/-! ## Requests -/

/-- Two requests ask for the same when they share frequency, key and variable, up to case. -/
theorem sameAs_iff {a b : OutputRequest} :
    a.sameAs b = true ↔ a.frequency = b.frequency ∧ Text.asciiUpper a.key = Text.asciiUpper b.key ∧
      Text.asciiUpper a.variableName = Text.asciiUpper b.variableName := by
  simp [OutputRequest.sameAs, and_assoc]

theorem sameAs_trans {a b c : OutputRequest} (hab : a.sameAs b = true) (hbc : b.sameAs c = true) :
    a.sameAs c = true := by
  rw [sameAs_iff] at *
  exact ⟨hab.1.trans hbc.1, hab.2.1.trans hbc.2.1, hab.2.2.trans hbc.2.2⟩

/-! ## The invariant -/

/-- What holds of every model that was made by adding objects. -/
structure Coherent (m : Model) : Prop where
  valid : ∀ d ∈ m.declarations, d.Valid
  apart : (m.declarations.filterMap Declaration.slot?).Nodup
  taken : ∀ s, m.taken s = true ↔ ∃ d ∈ m.declarations, d.slot? = some s
  names : ∀ d ∈ m.declarations, ∀ e, d.binding? = some e → m.names.find? e.1.key = some e.2
  requests : m.requests.Pairwise fun a b => a.sameAs b = false

theorem coherent_empty : Coherent empty where
  valid d hd := by simp [declarations, empty] at hd
  apart := by simp [declarations, empty]
  taken s := by cases s <;> simp [Model.taken, declarations, empty]
  names d hd := by simp [declarations, empty] at hd
  requests := List.Pairwise.nil

/-- The objects of a coherent model do not change with its settings. -/
theorem Coherent.withReporting {m : Model} (h : Coherent m) (r : Reporting) :
    Coherent (m.withReporting r) where
  valid := h.valid
  apart := h.apart
  taken s := by
    rw [show (m.withReporting r).taken s = m.taken s by cases s <;> rfl]
    exact h.taken s
  names := h.names
  requests := h.requests

theorem requests_push_pairwise {m : Model} {d : Declaration}
    (h : m.requests.Pairwise fun a b => a.sameAs b = false) :
    (m.push d).requests.Pairwise fun a b => a.sameAs b = false := by
  cases d with
  | request r =>
    simp only [push]
    split
    · exact h
    · next hr =>
      have new : ∀ x ∈ m.requests, x.sameAs r = false := by simpa [hasRequest] using hr
      rw [List.pairwise_append]
      exact ⟨h, List.pairwise_singleton _ r, fun x hx y hy => by simp_all⟩
  | _ => simpa only [push, register] using h

/-- A valid object with a free slot keeps the invariant. -/
theorem Coherent.push {m : Model} (h : Coherent m) {d : Declaration} (valid : d.Valid)
    (free : m.Free d) : Coherent (m.push d) := by
  by_cases hd : m.drops d = true
  · -- a request that is there already changes nothing
    rwa [push_of_drops hd]
  have perm : (m.push d).declarations.Perm (d :: m.declarations) :=
    declarations_push_perm (by simpa using hd)
  have mem : ∀ e, e ∈ (m.push d).declarations ↔ e = d ∨ e ∈ m.declarations := fun e => by
    rw [perm.mem_iff, List.mem_cons]
  refine ⟨?_, ?_, ?_, ?_, requests_push_pairwise h.requests⟩
  · intro e he
    rcases (mem e).1 he with rfl | he
    · exact valid
    · exact h.valid e he
  · -- the slot of `d` was free, so no other object has it
    rw [(perm.filterMap _).nodup_iff, List.filterMap_cons]
    cases hs : d.slot? with
    | none => exact h.apart
    | some s =>
      refine List.nodup_cons.2 ⟨fun hm => ?_, h.apart⟩
      have taken := (h.taken s).2 (List.mem_filterMap.1 hm)
      rw [free s hs] at taken
      cases taken
  · intro s
    simp only [taken_push, Bool.or_eq_true, decide_eq_true_eq, h.taken, mem, or_and_right,
      exists_or, exists_eq_left]
  · intro e he b hb
    rw [names_push]
    rcases (mem e).1 he with rfl | he
    · rw [hb]
      exact if_pos rfl
    · have old := h.names e he b hb
      cases hd : d.binding? with
      | none => exact old
      | some c =>
        -- the new name is not `b`, for the slot of `b` was taken
        have other : c.1.key ≠ b.1.key := by
          intro hk
          have taken : m.taken (.name b.1.key) = true := by simp [Model.taken, old]
          rw [free _ (hk ▸ Declaration.slot?_of_binding? hd)] at taken
          cases taken
        simp only [if_neg other, old]

theorem Coherent.declare {m n : Model} (h : Coherent m) {d : Declaration}
    (hd : m.declare d = .ok n) : Coherent n := by
  obtain ⟨valid, free, rfl⟩ := declare_eq_ok_iff.1 hd
  exact h.push valid free

/-- Adding objects keeps the invariant, also when it stops halfway. -/
theorem Coherent.declareAll {m : Model} (h : Coherent m) (ds : List Declaration) :
    Coherent (m.declareAll ds).1 := by
  induction ds generalizing m with
  | nil => exact h
  | cons d ds ih =>
    rw [Model.declareAll]
    cases hd : m.declare d with
    | ok n => exact ih (h.declare hd)
    | error fault => exact h

/-- Merging keeps the invariant of the model that receives the objects. -/
theorem Coherent.merge {m : Model} (h : Coherent m) (other : Model) :
    Coherent (m.merge other).1 := by
  unfold Model.merge
  split
  · exact h
  · exact h.declareAll _

end BuildingControl.Model
