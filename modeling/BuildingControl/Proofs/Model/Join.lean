/-
  BuildingControl.Proofs.Model.Join

  What a merge comes to.  Two models whose slots do not meet have a join: list
  after list, with the settings of the first.  A merge of a coherent model
  succeeds exactly when the slots do not meet, and then leaves the join
  (`merge_eq_ok_iff`); otherwise it changes nothing (`merge_eq_error`).

  Joins are associative and the empty model is their right unit, so the order in
  which several models are brought together does not matter.  Only the requests
  make this more than list algebra: equal ones fall together, and the first
  spelling stays.
-/
import BuildingControl.Proofs.Model.Coherent
import Mathlib.Data.List.Induction

namespace BuildingControl.Model

open Erl

/-! ## Requests brought together -/

/-- A request at the end of a list, unless the same is there already. -/
def addRequest (rs : List OutputRequest) (r : OutputRequest) : List OutputRequest :=
  if rs.any (·.sameAs r) then rs else rs ++ [r]

/-- The requests of two lists, each of the second unless the same is there already. -/
def joinRequests (rs ss : List OutputRequest) : List OutputRequest :=
  ss.foldl addRequest rs

/-- Whether the same is asked for stays whether it is asked for once more or not. -/
theorem any_sameAs_addRequest (rs : List OutputRequest) (r x : OutputRequest) :
    (addRequest rs r).any (·.sameAs x) = (rs.any (·.sameAs x) || r.sameAs x) := by
  unfold addRequest
  split
  · next h =>
    obtain ⟨y, hy, hyr⟩ := List.any_eq_true.1 h
    -- `r` is dropped for `y`, which asks for the same as `x` whenever `r` does
    by_cases hx : r.sameAs x = true
    · have : rs.any (·.sameAs x) = true := List.any_eq_true.2 ⟨y, hy, sameAs_trans hyr hx⟩
      rw [this, hx]
      rfl
    · simp [hx]
  · simp

theorem any_sameAs_joinRequests (rs ss : List OutputRequest) (x : OutputRequest) :
    (joinRequests rs ss).any (·.sameAs x) = (rs.any (·.sameAs x) || ss.any (·.sameAs x)) := by
  induction ss generalizing rs with
  | nil => simp [joinRequests]
  | cons s ss ih =>
    rw [joinRequests, List.foldl_cons, ← joinRequests, ih, any_sameAs_addRequest, List.any_cons,
      Bool.or_assoc]

theorem joinRequests_addRequest (rs ss : List OutputRequest) (r : OutputRequest) :
    joinRequests rs (addRequest ss r) = addRequest (joinRequests rs ss) r := by
  by_cases h : ss.any (·.sameAs r) = true
  · -- what `ss` drops the join drops as well
    have both : (joinRequests rs ss).any (·.sameAs r) = true := by
      rw [any_sameAs_joinRequests, h, Bool.or_true]
    rw [addRequest, if_pos h, addRequest, if_pos both]
  · rw [addRequest, if_neg h, joinRequests, List.foldl_append]
    rfl

theorem joinRequests_assoc (rs ss ts : List OutputRequest) :
    joinRequests (joinRequests rs ss) ts = joinRequests rs (joinRequests ss ts) := by
  -- one request of `ts` after another, from the last
  induction ts using List.reverseRecOn with
  | nil => rfl
  | append_singleton ts t ih =>
    have last (us : List OutputRequest) :
        joinRequests us (ts ++ [t]) = addRequest (joinRequests us ts) t := by
      simp [joinRequests]
    rw [last, last, ih, joinRequests_addRequest]

/-- Without repetitions every request of a list is new. -/
theorem joinRequests_nil_left {rs : List OutputRequest}
    (h : rs.Pairwise fun a b => a.sameAs b = false) : joinRequests [] rs = rs := by
  induction rs using List.reverseRecOn with
  | nil => rfl
  | append_singleton rs r ih =>
    obtain ⟨hrs, -, hr⟩ := List.pairwise_append.1 h
    have new : rs.any (·.sameAs r) = false :=
      List.any_eq_false.2 fun x hx => by simp [hr x hx r (List.mem_singleton_self r)]
    have step : joinRequests [] (rs ++ [r]) = addRequest (joinRequests [] rs) r := by
      simp [joinRequests]
    rw [step, ih hrs, addRequest, if_neg (by simp [new])]

/-! ## Joins -/

/-- Two models side by side, with the settings of the first. -/
def join (m n : Model) : Model where
  sensors := m.sensors ++ n.sensors
  actuators := m.actuators ++ n.actuators
  globals := m.globals ++ n.globals
  trends := m.trends ++ n.trends
  internals := m.internals ++ n.internals
  constructions := m.constructions ++ n.constructions
  outputs := m.outputs ++ n.outputs
  programs := m.programs ++ n.programs
  subroutines := m.subroutines ++ n.subroutines
  managers := m.managers ++ n.managers
  requests := joinRequests m.requests n.requests
  reporting := m.reporting
  names := ⟨fun key => (n.names.find? key).or (m.names.find? key)⟩
  managerNames := ⟨fun key => n.managerNames.contains key || m.managerNames.contains key⟩
  outputNames := ⟨fun key => n.outputNames.contains key || m.outputNames.contains key⟩

theorem join_assoc (a b c : Model) : (a.join b).join c = a.join (b.join c) := by
  simp [join, joinRequests_assoc, Option.or_assoc, Bool.or_assoc]

@[simp] theorem join_empty (m : Model) : m.join empty = m := by
  simp [join, empty, joinRequests]

@[simp] theorem taken_join (m n : Model) (s : Slot) :
    (m.join n).taken s = (n.taken s || m.taken s) := by
  cases s <;> simp [taken, join, Option.isSome_or]

theorem objects_join (m n : Model) {k : ObjectKind} (hk : k ≠ .request) :
    (m.join n).objects k = m.objects k ++ n.objects k := by
  cases k <;> simp_all [join, objects]

/-- A coherent model joined to the empty one is itself, apart from its settings. -/
theorem empty_join {m : Model} (h : Coherent m) : empty.join m = m.withReporting .silent := by
  have requests := joinRequests_nil_left h.requests
  simp [join, empty, withReporting, Registry.empty, KeySet.empty, requests]

/-- No slot is taken in both models. -/
def Apart (m n : Model) : Prop :=
  ∀ s, n.taken s = true → m.taken s = false

theorem apart_join_left {a b c : Model} : Apart (a.join b) c ↔ Apart a c ∧ Apart b c := by
  unfold Apart
  simp only [taken_join, Bool.or_eq_false_iff]
  exact ⟨fun h => ⟨fun s hs => (h s hs).2, fun s hs => (h s hs).1⟩,
    fun h s hs => ⟨h.2 s hs, h.1 s hs⟩⟩

theorem apart_join_right {a b c : Model} : Apart a (b.join c) ↔ Apart a b ∧ Apart a c := by
  unfold Apart
  simp only [taken_join, Bool.or_eq_true]
  exact ⟨fun h => ⟨fun s hs => h s (.inr hs), fun s hs => h s (.inl hs)⟩,
    fun h s hs => hs.elim (h.2 s) (h.1 s)⟩

theorem apart_empty_left (m : Model) : Apart empty m :=
  fun s _ => taken_empty s

theorem apart_empty_right (m : Model) : Apart m empty := by
  intro s hs
  rw [taken_empty] at hs
  cases hs

/-! ## Adding all objects of a model -/

/-- The request that a declaration adds. -/
def Declaration.request? : Declaration → Option OutputRequest
  | .request r => some r
  | _ => none

theorem filterMap_request_declarations (m : Model) :
    m.declarations.filterMap Declaration.request? = m.requests := by
  simp [declarations, List.filterMap_append, List.filterMap_map, Function.comp_def,
    Declaration.request?]

theorem push_request (m : Model) (r : OutputRequest) :
    m.push (.request r) = { m with requests := addRequest m.requests r } := by
  show (if m.hasRequest r then m else { m with requests := m.requests ++ [r] }) = _
  by_cases h : m.hasRequest r = true
  · have there : addRequest m.requests r = m.requests := if_pos h
    rw [if_pos h, there]
  · have new : addRequest m.requests r = m.requests ++ [r] := if_neg h
    rw [if_neg h, new]

theorem foldl_push_requests (m : Model) (ds : List Declaration) :
    (ds.foldl push m).requests = joinRequests m.requests (ds.filterMap Declaration.request?) := by
  induction ds generalizing m with
  | nil => rfl
  | cons d ds ih =>
    rw [List.foldl_cons, ih]
    cases d with
    | request r => rw [push_request]; rfl
    | _ => simp only [push, register, List.filterMap_cons, Declaration.request?]

theorem foldl_push_reporting (m : Model) (ds : List Declaration) :
    (ds.foldl push m).reporting = m.reporting := by
  induction ds generalizing m with
  | nil => rfl
  | cons d ds ih => rw [List.foldl_cons, ih, push_reporting]

/-- A name that no added object declares keeps its meaning. -/
theorem foldl_push_names_of_other {m : Model} {ds : List Declaration} {key : String}
    (h : ∀ d ∈ ds, ∀ e, d.binding? = some e → e.1.key ≠ key) :
    (ds.foldl push m).names.find? key = m.names.find? key := by
  induction ds generalizing m with
  | nil => rfl
  | cons d ds ih =>
    rw [List.foldl_cons, ih fun e he => h e (List.mem_cons_of_mem d he), names_push]
    split
    · next e he => exact if_neg (h d List.mem_cons_self e he)
    · rfl

/-- A name that one added object declares stands for what that object says. -/
theorem foldl_push_names {m : Model} {ds : List Declaration}
    (apart : (ds.filterMap Declaration.slot?).Nodup) {d : Declaration} (hd : d ∈ ds)
    {e : Name × NameClass} (he : d.binding? = some e) :
    (ds.foldl push m).names.find? e.1.key = some e.2 := by
  induction ds generalizing m with
  | nil => cases hd
  | cons c ds ih =>
    rw [List.foldl_cons]
    rcases List.mem_cons.1 hd with rfl | hd
    · -- `d` comes first, and no later object takes its slot
      have later : ∀ x ∈ ds, ∀ b, x.binding? = some b → b.1.key ≠ e.1.key := by
        intro x hx b hb hk
        rw [List.filterMap_cons_some (Declaration.slot?_of_binding? he), List.nodup_cons] at apart
        exact apart.1 (List.mem_filterMap.2 ⟨x, hx, hk ▸ Declaration.slot?_of_binding? hb⟩)
      rw [foldl_push_names_of_other later, names_push, he]
      exact if_pos rfl
    · exact ih (apart.sublist (List.Sublist.filterMap _ (List.sublist_cons_self c ds))) hd

/-- Adding the objects of a coherent model one by one gives the join. -/
theorem foldl_push_declarations (m : Model) {n : Model} (h : Coherent n) :
    n.declarations.foldl push m = m.join n := by
  have known (s : Slot) : (n.declarations.foldl push m).taken s = (m.join n).taken s := by
    rw [taken_foldl_push, taken_join]
    congr 1
    rw [Bool.eq_iff_iff, decide_eq_true_iff, h.taken]
  apply ext_objects
  · intro k
    -- requests are the only list that is more than an append
    by_cases hk : k = .request
    · subst hk
      exact congrArg (List.map Declaration.request)
        ((foldl_push_requests m _).trans (by rw [filterMap_request_declarations]; rfl))
    · rw [foldl_push_objects m _ hk, objects_join m n hk, filter_declarations]
  · exact foldl_push_reporting m _
  · ext1 key
    show (n.declarations.foldl push m).names.find? key =
      (n.names.find? key).or (m.names.find? key)
    -- what `n` says of a name was declared last
    cases hc : n.names.find? key with
    | none =>
      refine foldl_push_names_of_other fun d hd e he hk => ?_
      rw [← hk, h.names d hd e he] at hc
      cases hc
    | some cls =>
      have used : n.taken (.name key) = true := by simp [taken, hc]
      obtain ⟨d, hd, hs⟩ := (h.taken _).1 used
      obtain ⟨e, he, rfl⟩ := Declaration.binding?_of_slot? hs
      rw [foldl_push_names h.apart hd he, ← h.names d hd e he, hc]
      rfl
  · ext1 key
    exact known (.manager key)
  · ext1 key
    exact known (.output key)

/-! ## Merges -/

theorem mem_declared {m : Model} {e : Name × NameClass} :
    e ∈ m.declared ↔ ∃ d ∈ m.declarations, d.binding? = some e := by
  simp [declared, declarations, or_and_right, exists_or, Declaration.binding?]

/-- The slots of a coherent model are the names that a merge compares beforehand. -/
theorem clash?_eq_none_iff {m n : Model} (h : Coherent n) : m.clash? n = none ↔ Apart m n := by
  have compared : m.clash? n = none ↔
      (∀ e ∈ n.declared, m.taken (.name e.1.key) = false) ∧
      (∀ c ∈ n.managers, m.taken (.manager (Text.upper c.name)) = false) ∧
      ∀ o ∈ n.outputs, m.taken (.output (Text.upper o.name)) = false := by
    simp [clash?, Option.or_eq_none_iff, List.find?_eq_none, hasName, hasManager, hasOutput,
      lookup?, taken, Name.key]
  rw [compared]
  constructor
  · -- a taken slot of `n` belongs to an object, which is in one of the compared lists
    rintro ⟨names, managers, outputs⟩ s hs
    obtain ⟨d, hd, hds⟩ := (h.taken s).1 hs
    rw [mem_declarations] at hd
    cases s with
    | name key =>
      obtain ⟨e, he, rfl⟩ := Declaration.binding?_of_slot? hds
      exact names e (mem_declared.2 ⟨d, mem_declarations.2 hd, he⟩)
    | manager key =>
      cases d <;> simp [Declaration.slot?, Declaration.binding?, Declaration.kind, objects] at hds hd
      exact hds ▸ managers _ hd
    | output key =>
      cases d <;> simp [Declaration.slot?, Declaration.binding?, Declaration.kind, objects] at hds hd
      exact hds ▸ outputs _ hd
  · intro apart
    have slot {d : Declaration} (hd : d ∈ n.declarations) {s : Slot} (hs : d.slot? = some s) :
        m.taken s = false := apart s ((h.taken s).2 ⟨d, hd, hs⟩)
    refine ⟨fun e he => ?_, fun c hc => ?_, fun o ho => ?_⟩
    · obtain ⟨d, hd, hde⟩ := mem_declared.1 he
      exact slot hd (Declaration.slot?_of_binding? hde)
    · exact slot (mem_declarations.2 (List.mem_map_of_mem hc)) (d := .manager c) rfl
    · exact slot (mem_declarations.2 (List.mem_map_of_mem ho)) (d := .output o) rfl

/-- Merging a coherent model whose slots are free gives the join. -/
theorem merge_of_apart {m n : Model} (h : Coherent n) (apart : Apart m n) :
    m.merge n = (m.join n, .ok ()) := by
  rw [merge, (clash?_eq_none_iff h).2 apart, ← foldl_push_declarations m h]
  exact declareAll_eq_ok_iff.2
    ⟨h.valid, h.apart, fun d hd s hs => apart s ((h.taken s).2 ⟨d, hd, hs⟩), rfl⟩

/-- A merge succeeds exactly when the slots of the two models do not meet. -/
theorem merge_eq_ok_iff {m n l : Model} (h : Coherent n) :
    m.merge n = (l, .ok ()) ↔ Apart m n ∧ m.join n = l := by
  constructor
  · intro hm
    have apart : Apart m n := by
      rw [← clash?_eq_none_iff h]
      by_contra hc
      obtain ⟨name, hname⟩ := Option.ne_none_iff_exists'.1 hc
      rw [merge, hname] at hm
      cases hm
    rw [merge_of_apart h apart, Prod.mk.injEq] at hm
    exact ⟨apart, hm.1⟩
  · rintro ⟨apart, rfl⟩
    exact merge_of_apart h apart

/-- A merge that fails leaves the model as it was. -/
theorem merge_eq_error {m n l : Model} {fault : Fault} (h : Coherent n)
    (hm : m.merge n = (l, .error fault)) : l = m := by
  by_cases apart : Apart m n
  · rw [merge_of_apart h apart] at hm
    cases hm
  · rw [← clash?_eq_none_iff h] at apart
    obtain ⟨name, hname⟩ := Option.ne_none_iff_exists'.1 apart
    rw [merge, hname] at hm
    cases hm
    rfl

theorem Coherent.join {m n : Model} (hm : Coherent m) (hn : Coherent n) (apart : Apart m n) :
    Coherent (m.join n) := by
  have merged := hm.merge n
  rwa [merge_of_apart hn apart] at merged

/-! ## Several models -/

/-- Bringing models together first, then adding them, is adding them one by one. -/
theorem join_foldl_join (m c : Model) (os : List Model) :
    m.join (os.foldl join c) = os.foldl join (m.join c) := by
  induction os generalizing c with
  | nil => rfl
  | cons o os ih => rw [List.foldl_cons, ih, List.foldl_cons, join_assoc]

theorem apart_foldl_join {m c : Model} {os : List Model} :
    Apart m (os.foldl join c) ↔ Apart m c ∧ ∀ o ∈ os, Apart m o := by
  induction os generalizing c with
  | nil => simp
  | cons o os ih => rw [List.foldl_cons, ih, apart_join_right, List.forall_mem_cons, and_assoc]

theorem Coherent.foldl_join {c : Model} {os : List Model} (h : Coherent c)
    (coherent : ∀ o ∈ os, Coherent o) (apart : ∀ o ∈ os, Apart c o) (pairs : os.Pairwise Apart) :
    Coherent (os.foldl Model.join c) := by
  induction os generalizing c with
  | nil => exact h
  | cons o os ih =>
    have ho := h.join (coherent o List.mem_cons_self) (apart o List.mem_cons_self)
    obtain ⟨first, rest⟩ := List.pairwise_cons.1 pairs
    refine ih ho (fun x hx => coherent x (List.mem_cons_of_mem o hx)) (fun x hx => ?_) rest
    exact apart_join_left.2 ⟨apart x (List.mem_cons_of_mem o hx), first x hx⟩

end BuildingControl.Model
