/-
  BuildingControl.Proofs.Measure.Distinct

  Batches whose names never collide.  A batch hands disjoint ranges of numbers to its
  measures (`ranges_of_reserve`), so that the names of two measures differ by their
  numbers, and those without a number by the kinds of the measures.  Where all names
  differ, no script is stopped by a name that is taken (`clashless_run`), and neither is
  bringing the objects together (`clashless_combine`).
-/
import BuildingControl.Proofs.Measure.Batch
import BuildingControl.Proofs.Measure.Naming

namespace BuildingControl.Measure

open Erl Model

/-! ## Tags -/

/-- The names without a number. -/
def Kind.plain (kind : Kind) : List String := kind.opening ++ kind.closing

theorem mem_unitTags {patterns : List String} {first count : Nat} {t : String × Nat} :
    t ∈ unitTags patterns first count ↔
      (first ≤ t.2 ∧ t.2 < first + count) ∧ t.1 ∈ patterns := by
  rw [unitTags, List.mem_flatMap]
  constructor
  · rintro ⟨n, hn, ht⟩
    obtain ⟨pattern, hp, rfl⟩ := List.mem_map.1 ht
    exact ⟨List.mem_range'_1.1 hn, hp⟩
  · rintro ⟨range, hp⟩
    exact ⟨t.2, List.mem_range'_1.2 range, List.mem_map_of_mem hp⟩

/-- A tag of a measure is a plain name, or a pattern with the number of a unit. -/
theorem mem_tags {kind : Kind} {first count : Nat} {t : String × Nat} :
    t ∈ tags kind first count ↔ t.2 = 0 ∧ t.1 ∈ kind.plain ∨
      (first ≤ t.2 ∧ t.2 < first + count) ∧ t.1 ∈ kind.unitPatterns := by
  have plain (names : List String) : t ∈ names.map (·, 0) ↔ t.2 = 0 ∧ t.1 ∈ names := by
    obtain ⟨pattern, n⟩ := t
    simp [and_comm, eq_comm]
  rw [tags, List.mem_append, List.mem_append, plain, plain, mem_unitTags, Kind.plain,
    List.mem_append]
  tauto

theorem nodup_unitTags {patterns : List String} (h : patterns.Nodup) (first count : Nat) :
    (unitTags patterns first count).Nodup := by
  refine List.nodup_flatMap.2 ⟨fun n _ => h.map (Prod.mk_left_injective n), ?_⟩
  have apart : (List.range' first count).Pairwise (· ≠ ·) := List.nodup_range'
  refine apart.imp fun {n k} other t hn hk => other ?_
  obtain ⟨_, -, rfl⟩ := List.mem_map.1 hn
  obtain ⟨_, -, same⟩ := List.mem_map.1 hk
  exact (congrArg Prod.snd same).symm

/-- The names of a measure have different tags. -/
theorem nodup_tags (kind : Kind) {first : Nat} (pos : 0 < first) (count : Nat) :
    (tags kind first count).Nodup := by
  have patterns : kind.unitPatterns.Nodup := by cases kind <;> decide
  have plain : kind.plain.Nodup := by cases kind <;> decide
  -- the names without a number are the ones with number zero
  have order : (tags kind first count).Perm
      (kind.plain.map (·, 0) ++ unitTags kind.unitPatterns first count) := by
    rw [tags, Kind.plain, List.map_append, List.append_assoc, List.append_assoc]
    exact List.perm_append_comm.append_left _
  rw [order.nodup_iff, List.nodup_append]
  refine ⟨plain.map (Prod.mk_left_injective 0), nodup_unitTags patterns first count, ?_⟩
  rintro t ht _ hu rfl
  obtain ⟨_, -, rfl⟩ := List.mem_map.1 ht
  have numbered := (mem_unitTags.1 hu).1.1
  dsimp only at numbered
  omega

/-- Names without a number belong to one kind of measures. -/
theorem eq_of_mem_plain {k j : Kind} {name : String} (hk : name ∈ k.plain) (hj : name ∈ j.plain) :
    k = j ∧ k ≠ .comfortHalt := by
  have kinds (k j : Kind) : ∀ name ∈ k.plain, name ∈ j.plain → k = j ∧ k ≠ .comfortHalt := by
    cases k <;> cases j <;> decide
  exact kinds k j name hk hj

/-- Measures with numbers of their own have different tags. -/
theorem disjoint_tags {k j : Kind} (kinds : k = j → k = .comfortHalt) {first next : Nat}
    (pos : 0 < first) {count : Nat} (apart : first + count ≤ next) (more : Nat) :
    List.Disjoint (tags k first count) (tags j next more) := by
  intro t hk hj
  -- plain names tell the kinds, units the ranges, and a plain name has the number zero
  rcases mem_tags.1 hk with ⟨zero, plain⟩ | ⟨range, -⟩ <;>
    rcases mem_tags.1 hj with ⟨zero', plain'⟩ | ⟨range', -⟩
  · obtain ⟨same, other⟩ := eq_of_mem_plain plain plain'
    exact other (kinds same)
  · omega
  · omega
  · omega

/-! ## Ranges of numbers -/

/-- A batch sets aside one range of numbers after another. -/
theorem ranges_of_reserve {a next : Numbering} {measures : List Measure} {starts : List Numbering}
    (h : reserve a measures = .ok (starts, next)) :
    (measures.zip starts).map Prod.fst = measures ∧
      (∀ p ∈ measures.zip starts, a.next ≤ p.2.next ∧
        p.2.next + p.1.unitCount ≤ Numbering.limit) ∧
      (measures.zip starts).Pairwise fun p q => p.2.next + p.1.unitCount ≤ q.2.next := by
  -- the range of the first measure ends where numbering goes on for the others
  induction measures generalizing a starts with
  | nil =>
    cases h
    exact ⟨rfl, nofun, .nil⟩
  | cons measure measures ih =>
    obtain ⟨b, rest, taken, later, rfl⟩ := reserve_cons_eq_ok_iff.1 h
    rw [allocations, Numbering.skip_min_limit] at taken
    have after : b.next = a.next + measure.unitCount := Numbering.next_of_skip taken
    obtain ⟨same, ranges, apart⟩ := ih later
    refine ⟨?_, ?_, ?_⟩
    · rw [List.zip_cons_cons, List.map_cons, same]
    · refine List.forall_mem_cons.2 ⟨⟨le_refl _, ?_⟩, fun p hp => ?_⟩
      · exact after ▸ b.le_limit
      · have range := ranges p hp
        omega
    · refine List.pairwise_cons.2 ⟨fun q hq => ?_, apart⟩
      have range := ranges q hq
      show a.next + measure.unitCount ≤ q.2.next
      omega

/-- Numbering fails for a lack of numbers alone. -/
theorem clashless_skip (a : Numbering) (count : Nat) : Erl.Clashless (a.skip count) := by
  unfold Numbering.skip
  split
  · exact onFault_ok _
  · exact onFault_error.2 rfl

theorem clashless_reserve (a : Numbering) (measures : List Measure) :
    Clashless (reserve a measures) := by
  induction measures generalizing a with
  | nil => exact onFault_ok _
  | cons measure measures ih =>
    rw [reserve]
    split
    · next fault failed => exact onFault_error.2 (clashless_skip a _ fault failed)
    · exact (ih _).map _

/-! ## Scripts -/

/-- The slots that the objects of a script take. -/
def Script.slots (s : Script) : List Slot := s.made.filterMap Declaration.slot?

/-- A script whose objects have names of their own is not stopped by a name that is taken. -/
theorem Script.clashless_run {s : Script} {m : Model} (own : ∀ step ∈ s, Clashless step)
    (apart : s.slots.Nodup) (free : ∀ t ∈ s.slots, m.taken t = false) : Clashless (s.run m) := by
  induction s generalizing m with
  | nil => exact onFault_ok _
  | cons step rest ih =>
    obtain ⟨first, later⟩ := List.forall_mem_cons.1 own
    cases step with
    | error fault => exact onFault_error.2 (first fault rfl)
    | ok d =>
      have slots : Script.slots (.ok d :: rest) = d.slot?.toList ++ slots rest := by
        have made : made (.ok d :: rest) = d :: made rest := rfl
        rw [Script.slots, made, List.filterMap_cons]
        cases d.slot? <;> rfl
      rw [slots] at apart free
      obtain ⟨freeFirst, freeLater⟩ := List.forall_mem_append.1 free
      obtain ⟨-, apartLater, apartBoth⟩ := List.nodup_append.1 apart
      rw [run]
      split
      · next next declared =>
        obtain ⟨-, -, rfl⟩ := declare_eq_ok_iff.1 declared
        -- what was free stays so: the object takes none of the slots of the later ones
        refine ih later apartLater fun t ht => ?_
        have other : d.slot? ≠ some t := fun same => apartBoth t (by rw [same]; simp) t ht rfl
        rw [taken_push, freeLater t ht, decide_eq_false other]
        rfl
      · next fault failed =>
        have admitted : m.Free d := fun t ht => freeFirst t (by rw [ht]; simp)
        exact onFault_error.2 (clashless_declare admitted fault failed)

theorem Script.made_eq {s : Script} {ds : List Declaration} (h : AllOk s ds) : s.made = ds := by
  rw [made, h, List.filterMap_map]
  exact List.filterMap_some

/-- The slots that are taken after a run. -/
theorem Script.taken_of_run {s : Script} {m : Model} (h : s.run .empty = .ok m) (t : Slot) :
    m.taken t = true ↔ t ∈ s.slots := by
  obtain ⟨ds, all, added⟩ := run_eq_ok_iff.1 h
  obtain ⟨-, -, -, rfl⟩ := declareAll_eq_ok_iff.1 added
  rw [taken_foldl_push, taken_empty, Script.slots, made_eq all, List.mem_filterMap]
  simp

/-- The names that are there after a run. -/
theorem Script.labels_of_run {s : Script} {m : Model} (h : s.run .empty = .ok m) :
    m.labels.Perm s.labels := by
  obtain ⟨ds, all, added⟩ := run_eq_ok_iff.1 h
  obtain ⟨-, -, -, rfl⟩ := declareAll_eq_ok_iff.1 added
  rw [Script.labels, made_eq all]
  exact labels_foldl_push .empty ds

/-! ## Measures brought together -/

theorem clashless_build {x : Measure} {a : Numbering} (own : ∀ step ∈ x.script a, Clashless step)
    (apart : (x.script a).slots.Nodup) : Clashless (x.build a) := by
  have ran : Clashless ((x.script a).run .empty) :=
    Script.clashless_run own apart fun t _ => taken_empty t
  unfold build
  split
  · next fault failed => exact onFault_error.2 (ran fault failed)
  · split
    · next fault failed =>
      rw [Numbering.advanceBy_eq_skip] at failed
      exact onFault_error.2 (clashless_skip a _ fault failed)
    · exact onFault_ok _

/-- Measures whose objects have names of their own come together. -/
theorem clashless_combine {c : Model} {parts : List (Measure × Numbering)}
    (own : ∀ p ∈ parts, ∀ step ∈ p.1.script p.2, Clashless step)
    (apart : (parts.flatMap fun p => (p.1.script p.2).slots).Nodup)
    (free : ∀ t ∈ parts.flatMap fun p => (p.1.script p.2).slots, c.taken t = false) :
    Clashless (combine c parts) := by
  induction parts generalizing c with
  | nil => exact onFault_ok _
  | cons p parts ih =>
    obtain ⟨x, a⟩ := p
    obtain ⟨first, later⟩ := List.forall_mem_cons.1 own
    rw [List.flatMap_cons] at apart free
    obtain ⟨apartFirst, apartLater, apartBoth⟩ := List.nodup_append.1 apart
    obtain ⟨freeFirst, freeLater⟩ := List.forall_mem_append.1 free
    rw [combine]
    cases built : x.build a with
    | error fault => exact onFault_error.2 (clashless_build first apartFirst fault built)
    | ok r =>
      obtain ⟨o, next⟩ := r
      have taken := Script.taken_of_run (build_eq_ok_iff.1 built).1
      have joins : (mergeBuilt c o next).model? = .ok (c.join o) :=
        model?_eq_ok_iff.2 ⟨next, (mergeBuilt_eq_ok_iff (coherent_of_build built)).2
          ⟨fun t ht => freeFirst t ((taken t).1 ht), rfl, rfl⟩⟩
      simp only [joins]
      refine ih later apartLater fun t ht => ?_
      have other : o.taken t = false := by
        rw [Bool.eq_false_iff, Ne, taken]
        exact fun here => apartBoth t here t ht rfl
      rw [taken_join, other, freeLater t ht]
      rfl

/-- The names of measures that came together. -/
theorem labels_combine {c l : Model} {parts : List (Measure × Numbering)}
    (h : combine c parts = .ok l) :
    l.labels.Perm (c.labels ++ parts.flatMap fun p => (p.1.script p.2).labels) := by
  induction parts generalizing c with
  | nil =>
    cases h
    simp
  | cons p parts ih =>
    obtain ⟨x, a⟩ := p
    obtain ⟨o, b, built, -, rest⟩ := combine_cons_eq_ok_iff.1 h
    have own := Script.labels_of_run (build_eq_ok_iff.1 built).1
    refine (ih rest).trans ?_
    rw [List.flatMap_cons, ← List.append_assoc]
    exact ((labels_join c (coherent_of_build built)).trans (own.append_left _)).append_right _

/-! ## Main result -/

section Batch

variable {measures : List Measure} (keeps : ∀ x ∈ measures, KeepsNames x)
  (once : measures.Pairwise fun x y => x.kind = y.kind → x.kind = .comfortHalt)
  {a next : Numbering} {starts : List Numbering} (reserved : reserve a measures = .ok (starts, next))

include keeps reserved

/-- What is known of the names of each measure of a batch. -/
theorem exists_names_of_reserve {p : Measure × Numbering} (hp : p ∈ measures.zip starts) :
    ∃ names, (p.1.script p.2).Names names ∧
      names.map tag = tags p.1.kind p.2.next p.1.unitCount := by
  have member : p.1 ∈ measures := (List.of_mem_zip hp).1
  exact exists_names (keeps p.1 member) ((ranges_of_reserve reserved).2.1 p hp).2

include once

/-- No two of the names that the measures of a batch make are one. -/
theorem nodup_labels_of_reserve :
    (((measures.zip starts).flatMap fun p => (p.1.script p.2).labels).map Text.upper).Nodup := by
  obtain ⟨same, -, ranges⟩ := ranges_of_reserve reserved
  have kinds : (measures.zip starts).Pairwise fun p q =>
      p.1.kind = q.1.kind → p.1.kind = .comfortHalt := by
    rw [← same] at once
    exact List.pairwise_map.1 once
  have own (p) (hp : p ∈ measures.zip starts) : ((p.1.script p.2).labels.map tag).Sublist
      (tags p.1.kind p.2.next p.1.unitCount) := by
    obtain ⟨names, made, tagged⟩ := exists_names_of_reserve keeps reserved hp
    rw [← tagged]
    exact made.labels.map tag
  refine nodup_upper_of_tag ?_
  rw [List.map_flatMap, List.nodup_flatMap]
  refine ⟨fun p hp => (nodup_tags _ p.2.pos _).sublist (own p hp), ?_⟩
  refine (kinds.and ranges).imp_of_mem fun {p q} hp hq apart t ht hu => ?_
  exact disjoint_tags apart.1 p.2.pos apart.2 _ ((own p hp).subset ht) ((own q hq).subset hu)

/-- Neither do any two of their objects take one slot. -/
theorem nodup_slots_of_reserve :
    ((measures.zip starts).flatMap fun p => (p.1.script p.2).slots).Nodup := by
  have apart := nodup_labels_of_reserve keeps once reserved
  have labels : ((measures.zip starts).flatMap fun p => (p.1.script p.2).labels) =
      ((measures.zip starts).flatMap fun p => (p.1.script p.2).made).filterMap
        Declaration.label? := List.filterMap_flatMap.symm
  have slots : ((measures.zip starts).flatMap fun p => (p.1.script p.2).slots) =
      ((measures.zip starts).flatMap fun p => (p.1.script p.2).made).filterMap
        Declaration.slot? := List.filterMap_flatMap.symm
  rw [labels] at apart
  rw [slots]
  exact nodup_slots apart

omit reserved in
/-- A batch on the empty model never fails for a name that is taken. -/
theorem clashless_applyBatch : Clashless (applyBatch .empty measures a).2 := by
  unfold applyBatch
  split
  · next fault stopped => exact onFault_error.2 (clashless_reserve a measures fault stopped)
  · next starts next reserved =>
    have own (p) (hp : p ∈ measures.zip starts) : ∀ step ∈ p.1.script p.2, Clashless step := by
      obtain ⟨names, made, -⟩ := exists_names_of_reserve keeps reserved hp
      exact made.clashless
    have fresh := clashless_combine own (nodup_slots_of_reserve keeps once reserved)
      fun t _ => taken_empty t
    split
    · next fault stopped => exact onFault_error.2 (fresh fault stopped)
    · next combined combines =>
      -- what comes into the empty model meets nothing there
      have merged : mergeBuilt .empty combined next = (Model.empty.join combined, .ok next) :=
        (mergeBuilt_eq_ok_iff (coherent_combine coherent_empty combines)).2
          ⟨apart_empty_left combined, rfl, rfl⟩
      rw [merged]
      exact onFault_ok _

end Batch

/-- Names that are generated never collide, wherever numbering starts and whatever the building
    calls its parts.  Of a batch with any number of watches on comfort, and of condenser loops and
    curves at most one measure each under the names that are used when none are given, all names
    of variables, programs, subroutines, calling managers and reported outputs differ by more than
    the case of their letters: those of the objects that its measures make, also when one of them
    fails later on, and those in the model that an empty model becomes.  It never fails for a
    name that is taken. -/
theorem names_of_batch_differ (measures : List Measure) (a : Numbering)
    (keeps : ∀ x ∈ measures, KeepsNames x)
    (once : measures.Pairwise fun x y => x.kind = y.kind → x.kind = .comfortHalt) :
    (∀ starts next, reserve a measures = .ok (starts, next) →
      (((measures.zip starts).flatMap fun p => (p.1.script p.2).labels).map Text.upper).Nodup) ∧
    (∀ left next, applyBatch .empty measures a = (left, .ok next) →
      (left.labels.map Text.upper).Nodup) ∧
    ∀ left name, applyBatch .empty measures a ≠ (left, .error (.program (.duplicateName name))) := by
  refine ⟨fun starts next => nodup_labels_of_reserve keeps once, fun left next applied => ?_,
    fun left name failed => ?_⟩
  · obtain ⟨starts, combined, reserved, combines, merged⟩ := applyBatch_steps.1 applied
    have coherent := coherent_combine coherent_empty combines
    obtain ⟨-, rfl, -⟩ := (mergeBuilt_eq_ok_iff coherent).1 merged
    have labels := (labels_join .empty coherent).trans ((labels_combine combines).append_left _)
    exact (labels.map Text.upper).nodup_iff.2 (nodup_labels_of_reserve keeps once reserved)
  · have fresh : Clashless (applyBatch .empty measures a).2 := clashless_applyBatch keeps once
    rw [failed] at fresh
    exact nomatch fresh _ rfl

/-- Two watches on comfort, and loops whose names are spelled like generated ones or become one
    name. -/
def watchesAndLoops : List Measure :=
  [.comfortHalt { Comfort.default with zones := ["PMV2", "Zone"] },
   .condenserLoopOverride { Condenser.default with
     loops := [⟨"PumpFlowOverride", "P", .constant⟩, ⟨"L 1", "Q", .constant⟩,
       ⟨"L-1", "Q", .constant⟩] },
   .curveResultOverride { Curve.default with
     units := [⟨"H", "C", ⟨1, 0, 0, 0, 0, 0⟩⟩] },
   .comfortHalt { Comfort.default with zones := ["Zone"] }]

theorem names_of_batch_differ_loops :
    (∀ x ∈ watchesAndLoops, KeepsNames x) ∧
    (watchesAndLoops.Pairwise fun x y => x.kind = y.kind → x.kind = .comfortHalt) ∧
    (∃ starts next, reserve .first watchesAndLoops = .ok (starts, next) ∧
      (((watchesAndLoops.zip starts).flatMap fun p => (p.1.script p.2).labels).map
        Text.upper).Nodup) ∧
    ∀ left name, applyBatch .empty watchesAndLoops .first ≠
      (left, .error (.program (.duplicateName name))) := by
  have keeps : ∀ x ∈ watchesAndLoops, KeepsNames x := by simp [watchesAndLoops, KeepsNames]
  have once : watchesAndLoops.Pairwise fun x y => x.kind = y.kind → x.kind = .comfortHalt := by
    simp [watchesAndLoops, kind]
  have differ := names_of_batch_differ watchesAndLoops .first keeps once
  exact ⟨keeps, once, ⟨_, _, rfl, differ.1 _ _ rfl⟩, differ.2.2⟩

end BuildingControl.Measure
