/-
  BuildingControl.Proofs.Model.Merge

  The laws of merging.  Where it is defined it is associative, whichever of the two
  merges comes first; models without objects are its units, the settings of the
  receiving model apart; and it does not matter which of two models receives the
  other, but for the order of the objects (`merge_laws`).

  Requests need a word of their own: of equal ones the first spelling stays, so two
  merges of the same models may keep different spellings of one request.  They keep
  the same requests as far as these can be told apart (`exists_perm_requests`).
-/
import BuildingControl.Proofs.Measure.Reachable
import Mathlib.Data.List.Perm.Basic

namespace BuildingControl.Model

open Erl

/-! ## Requests that ask for the same -/

/-- What a request asks for, its spelling aside. -/
def asked (r : OutputRequest) : ReportingFrequency × String × String :=
  (r.frequency, Text.asciiUpper r.key, Text.asciiUpper r.variableName)

theorem sameAs_iff_asked {r s : OutputRequest} : r.sameAs s = true ↔ asked r = asked s := by
  simp [sameAs_iff, asked]

/-- Requests without repetitions ask for different things. -/
theorem nodup_asked {rs : List OutputRequest} (h : rs.Pairwise fun r s => r.sameAs s = false) :
    (rs.map asked).Nodup := by
  rw [List.Nodup, List.pairwise_map]
  refine h.imp fun differ same => ?_
  rw [sameAs_iff_asked.2 same] at differ
  cases differ

theorem mem_asked_iff {rs : List OutputRequest} {x : OutputRequest} :
    asked x ∈ rs.map asked ↔ rs.any (·.sameAs x) = true := by
  simp only [List.mem_map, List.any_eq_true, sameAs_iff_asked]

/-- Two lists without repetitions that ask for the same are one list in another order and in other
    spellings. -/
theorem exists_perm_requests {rs ss : List OutputRequest}
    (hr : rs.Pairwise fun r s => r.sameAs s = false)
    (hs : ss.Pairwise fun r s => r.sameAs s = false)
    (same : ∀ x, rs.any (·.sameAs x) = ss.any (·.sameAs x)) :
    ∃ ts, rs.Perm ts ∧ List.Forall₂ (fun t s => t.sameAs s = true) ts ss := by
  have perm : (rs.map asked).Perm (ss.map asked) := by
    refine (List.perm_ext_iff_of_nodup (nodup_asked hr) (nodup_asked hs)).2 fun k => ?_
    -- whatever is asked for is asked for by some request
    constructor
    · intro mem
      obtain ⟨x, -, rfl⟩ := List.mem_map.1 mem
      rwa [mem_asked_iff, same, ← mem_asked_iff] at mem
    · intro mem
      obtain ⟨x, -, rfl⟩ := List.mem_map.1 mem
      rwa [mem_asked_iff, ← same, ← mem_asked_iff] at mem
  have spelled : List.Forall₂ (fun r k => asked r = k) rs (rs.map asked) := by
    rw [List.forall₂_map_right_iff, List.forall₂_same]
    exact fun _ _ => rfl
  have moved : Relation.Comp (List.Forall₂ fun r k => asked r = k) List.Perm rs (ss.map asked) :=
    ⟨_, spelled, perm⟩
  rw [List.forall₂_comp_perm_eq_perm_comp_forall₂] at moved
  obtain ⟨ts, order, spelling⟩ := moved
  rw [List.forall₂_map_right_iff] at spelling
  exact ⟨ts, order, spelling.imp fun _ _ => sameAs_iff_asked.2⟩

/-! ## The two ways round -/

/-- Two models with the same objects in any order, and the same names in use. -/
structure SameObjects (m n : Model) : Prop where
  objects : ∀ k, k ≠ .request → (m.objects k).Perm (n.objects k)
  requests : ∃ rs, m.requests.Perm rs ∧
    List.Forall₂ (fun r s => r.sameAs s = true) rs n.requests
  names : m.names = n.names
  managerNames : m.managerNames = n.managerNames
  outputNames : m.outputNames = n.outputNames

theorem Apart.symm {m n : Model} (h : Apart m n) : Apart n m := by
  intro s taken
  by_contra other
  rw [h s (by simpa using other)] at taken
  cases taken

/-- Models that share no slot have the same objects together, whichever comes first. -/
theorem sameObjects_join {m n : Model} (hm : Coherent m) (hn : Coherent n) (apart : Apart m n) :
    SameObjects (m.join n) (n.join m) where
  objects k hk := by
    rw [objects_join m n hk, objects_join n m hk]
    exact List.perm_append_comm
  requests := by
    refine exists_perm_requests (hm.join hn apart).requests (hn.join hm apart.symm).requests ?_
    intro x
    show (joinRequests m.requests n.requests).any _ = (joinRequests n.requests m.requests).any _
    rw [any_sameAs_joinRequests, any_sameAs_joinRequests, Bool.or_comm]
  names := by
    ext1 key
    show (n.names.find? key).or (m.names.find? key) = (m.names.find? key).or (n.names.find? key)
    -- at most one of the two models knows the name
    cases hk : n.names.find? key with
    | none => simp
    | some cls =>
      have free : m.names.find? key = none := by
        have unused := apart (.name key) (by rw [taken, hk]; rfl)
        simpa [taken] using unused
      simp [free]
  managerNames := by
    ext1 key
    exact Bool.or_comm _ _
  outputNames := by
    ext1 key
    exact Bool.or_comm _ _

/-! ## Main result -/

/-- Two merges in a row: the slots of the three models do not meet, and the model that is left is
    the one after the other. -/
theorem merge_twice_iff {a b c l : Model} (hb : Coherent b) (hc : Coherent c) :
    (∃ ab, a.merge b = (ab, .ok ()) ∧ ab.merge c = (l, .ok ())) ↔
      (Apart a b ∧ Apart a c ∧ Apart b c) ∧ (a.join b).join c = l := by
  simp only [merge_eq_ok_iff hb, merge_eq_ok_iff hc]
  constructor
  · rintro ⟨_, ⟨ab, rfl⟩, both, rfl⟩
    obtain ⟨ac, bc⟩ := apart_join_left.1 both
    exact ⟨⟨ab, ac, bc⟩, rfl⟩
  · rintro ⟨⟨ab, ac, bc⟩, rfl⟩
    exact ⟨_, ⟨ab, rfl⟩, apart_join_left.2 ⟨ac, bc⟩, rfl⟩

/-- Merging into a model what was merged before. -/
theorem merge_merged_iff {a b c l : Model} (hb : Coherent b) (hc : Coherent c) :
    (∃ bc, b.merge c = (bc, .ok ()) ∧ a.merge bc = (l, .ok ())) ↔
      (Apart a b ∧ Apart a c ∧ Apart b c) ∧ a.join (b.join c) = l := by
  constructor
  · rintro ⟨_, inner, outer⟩
    obtain ⟨bc, rfl⟩ := (merge_eq_ok_iff hc).1 inner
    obtain ⟨both, rfl⟩ := (merge_eq_ok_iff (hb.join hc bc)).1 outer
    obtain ⟨ab, ac⟩ := apart_join_right.1 both
    exact ⟨⟨ab, ac, bc⟩, rfl⟩
  · rintro ⟨⟨ab, ac, bc⟩, rfl⟩
    refine ⟨b.join c, (merge_eq_ok_iff hc).2 ⟨bc, rfl⟩, ?_⟩
    exact (merge_eq_ok_iff (hb.join hc bc)).2 ⟨apart_join_right.2 ⟨ab, ac⟩, rfl⟩

/-- Merging is associative as far as it is defined: two merges in a row succeed exactly when the
    second model can take the third and the first can take both, and the same model is left, with
    the settings of the first.  A model without objects changes nothing, and becomes a copy of what
    is merged into it, but for its settings.  Of two models each can take the other or neither can,
    and both ways the same objects come together. -/
theorem merge_laws {a b c : Model} (ha : a.Reachable) (hb : b.Reachable) (hc : c.Reachable) :
    (∀ l, (∃ ab, a.merge b = (ab, .ok ()) ∧ ab.merge c = (l, .ok ())) ↔
      ∃ bc, b.merge c = (bc, .ok ()) ∧ a.merge bc = (l, .ok ())) ∧
    (∀ ab l, a.merge b = (ab, .ok ()) → ab.merge c = (l, .ok ()) → l.reporting = a.reporting) ∧
    (∀ r, a.merge (empty.withReporting r) = (a, .ok ())) ∧
    (∀ r, (empty.withReporting r).merge a = (a.withReporting r, .ok ())) ∧
    ((∃ l, a.merge b = (l, .ok ())) ↔ ∃ l, b.merge a = (l, .ok ())) ∧
    ∀ l k, a.merge b = (l, .ok ()) → b.merge a = (k, .ok ()) → SameObjects l k := by
  have bare (r : Reporting) : Coherent (empty.withReporting r) := coherent_empty.withReporting r
  refine ⟨fun l => ?_, ?_, fun r => ?_, fun r => ?_, ?_, ?_⟩
  · rw [merge_twice_iff hb.coherent hc.coherent, merge_merged_iff hb.coherent hc.coherent,
      join_assoc]
  · intro ab l first second
    obtain ⟨-, rfl⟩ := (merge_eq_ok_iff hb.coherent).1 first
    obtain ⟨-, rfl⟩ := (merge_eq_ok_iff hc.coherent).1 second
    rfl
  · -- the settings of the model that comes in are not looked at
    have same : a.join (empty.withReporting r) = a := join_empty a
    exact (merge_eq_ok_iff (bare r)).2 ⟨apart_empty_right a, same⟩
  · have same : (empty.withReporting r).join a = a.withReporting r :=
      congrArg (withReporting · r) (empty_join ha.coherent)
    exact (merge_eq_ok_iff ha.coherent).2 ⟨apart_empty_left a, same⟩
  · simp only [merge_eq_ok_iff ha.coherent, merge_eq_ok_iff hb.coherent, exists_and_left,
      exists_eq', and_true]
    exact ⟨Apart.symm, Apart.symm⟩
  · intro l k first second
    obtain ⟨apart, rfl⟩ := (merge_eq_ok_iff hb.coherent).1 first
    obtain ⟨-, rfl⟩ := (merge_eq_ok_iff ha.coherent).1 second
    exact sameObjects_join ha.coherent hb.coherent apart

/-- The temperature of every zone, asked for in some spelling. -/
def temperatures (spelling : String) : OutputRequest := ⟨"*", spelling, .hourly⟩

/-- Two spellings of one request, with a sensor between them: whichever merge comes first, the
    spelling of the first model stays. -/
theorem merge_requests_spelled :
    let first := empty.push (.request (temperatures "Zone Air Temperature"))
    let metered := empty.push (.sensor ⟨⟨"Power", by decide⟩, "", "Electricity:Facility"⟩)
    let second := empty.push (.request (temperatures "ZONE AIR temperature"))
    (first.Reachable ∧ metered.Reachable ∧ second.Reachable) ∧
      ∃ l, (∃ bc, metered.merge second = (bc, .ok ()) ∧ first.merge bc = (l, .ok ())) ∧
        l.requests = first.requests ∧ l.sensors = metered.sensors ∧
        ∃ k, second.merge first = (k, .ok ()) ∧ k.requests = second.requests ∧
          ∃ rs, k.requests.Perm rs ∧
            List.Forall₂ (fun r s => r.sameAs s = true) rs first.requests := by
  intro first metered second
  have reaches {d : Declaration} (free : empty.declare d = .ok (empty.push d)) :
      (empty.push d).Reachable := .declare .empty free
  have reachFirst : first.Reachable := reaches rfl
  have reachMetered : metered.Reachable := reaches rfl
  have reachSecond : second.Reachable := reaches rfl
  -- the two merges in a row are run, the law gives the other order
  obtain ⟨associative, -⟩ := merge_laws reachFirst reachMetered reachSecond
  obtain ⟨-, -, -, -, succeeds, same⟩ := merge_laws reachSecond reachFirst reachMetered
  obtain ⟨k, run⟩ := succeeds.2 ⟨_, rfl⟩
  have kept : k = (second.merge first).1 := by rw [run]
  refine ⟨⟨reachFirst, reachMetered, reachSecond⟩, _, (associative _).1 ⟨_, rfl, rfl⟩, rfl, rfl,
    k, run, by rw [kept]; rfl, ?_⟩
  exact (same k _ run rfl).requests

end BuildingControl.Model
