/-
  BuildingControl.Proofs.Measure.Batch

  A batch of measures against the same measures one after another.  Both build
  each measure with the numbering that the one before leaves; they differ in how
  that numbering is found and in how the objects come together.  Each of the two
  is characterised by the same three facts about the objects of the measures
  (`Built`, apart from the model, pairwise apart), which gives the main result,
  `applyBatch_eq_ok_iff`.
-/
import BuildingControl.Proofs.Measure.Script
import BuildingControl.Proofs.Model.Join

namespace BuildingControl.Measure

open Erl Model

/-! ## The objects of one measure -/

/-- What a batch sets aside for a measure is what the measure takes. -/
theorem skip_of_build {measure : Measure} {a b : Numbering} {o : Model}
    (h : measure.build a = .ok (o, b)) : a.skip measure.allocations = .ok b := by
  rw [allocations, Numbering.skip_min_limit, ← Numbering.advanceBy_eq_skip]
  exact (build_eq_ok_iff.1 h).2

theorem mergeBuilt_eq_ok_iff {m o left : Model} {a next : Numbering} (h : Coherent o) :
    mergeBuilt m o a = (left, .ok next) ↔ Apart m o ∧ m.join o = left ∧ a = next := by
  rw [← and_assoc, ← merge_eq_ok_iff h, mergeBuilt]
  rcases m.merge o with ⟨merged, _ | _⟩ <;> simp

/-- The numbering that comes with the objects is the result. -/
theorem mergeBuilt_next {m o left : Model} {a next : Numbering}
    (h : mergeBuilt m o a = (left, .ok next)) : a = next := by
  unfold mergeBuilt at h
  split at h <;> cases h
  rfl

theorem model?_eq_ok_iff {ε α : Type} {r : Attempt ε α} {n : Model} :
    r.model? = .ok n ↔ ∃ x, r = (n, .ok x) := by
  rcases r with ⟨left, _ | x⟩ <;> simp [Attempt.model?]

/-- A measure is applied by building it and joining its objects to the model. -/
theorem apply_eq_ok_iff {m left : Model} {measure : Measure} {a next : Numbering} :
    apply m measure a = (left, .ok next) ↔
      ∃ o, measure.build a = .ok (o, next) ∧ Apart m o ∧ m.join o = left := by
  unfold apply
  cases hb : measure.build a with
  | error fault => simp
  | ok built =>
    obtain ⟨o, b⟩ := built
    rw [mergeBuilt_eq_ok_iff (coherent_of_build hb)]
    constructor
    · rintro ⟨apart, hl, rfl⟩
      exact ⟨o, rfl, apart, hl⟩
    · rintro ⟨_, ho, apart, hl⟩
      cases ho
      exact ⟨apart, hl, rfl⟩

/-! ## The objects of several measures -/

/-- The objects of measures, each built with the numbering that the one before leaves, and the
    numbering after them. -/
inductive Built : Numbering → List Measure → List Model → Numbering → Prop
  | nil (a : Numbering) : Built a [] [] a
  | cons {a b next : Numbering} {measure : Measure} {measures : List Measure} {o : Model}
      {os : List Model} (first : measure.build a = .ok (o, b)) (rest : Built b measures os next) :
      Built a (measure :: measures) (o :: os) next

theorem Built.coherent {a next : Numbering} {measures : List Measure} {os : List Model}
    (h : Built a measures os next) : ∀ o ∈ os, Coherent o := by
  induction h with
  | nil => simp
  | cons first _ ih => exact List.forall_mem_cons.2 ⟨coherent_of_build first, ih⟩

/-- Measures can be applied one after another exactly when they can be built one after another
    and their objects share no slot with the model or with each other. -/
theorem applyEach_eq_ok_iff {m left : Model} {a next : Numbering} {measures : List Measure} :
    applyEach m a measures = (left, .ok next) ↔
      ∃ os, Built a measures os next ∧ (∀ o ∈ os, Apart m o) ∧ os.Pairwise Apart ∧
        os.foldl join m = left := by
  induction measures generalizing m a with
  | nil =>
    constructor
    · intro h
      cases h
      exact ⟨[], .nil _, by simp, List.Pairwise.nil, rfl⟩
    · rintro ⟨os, built, -, -, rfl⟩
      cases built
      rfl
  | cons measure measures ih =>
    constructor
    · intro h
      rw [applyEach] at h
      split at h
      · cases h
      · next merged b happly =>
        obtain ⟨o, build, apart, rfl⟩ := apply_eq_ok_iff.1 happly
        obtain ⟨os, built, aparts, pairs, rfl⟩ := ih.1 h
        simp only [apart_join_left, forall_and] at aparts
        exact ⟨o :: os, .cons build built, List.forall_mem_cons.2 ⟨apart, aparts.1⟩,
          List.pairwise_cons.2 ⟨aparts.2, pairs⟩, rfl⟩
    · rintro ⟨_, built, aparts, pairs, rfl⟩
      cases built with
      | cons build built =>
        obtain ⟨apart, aparts⟩ := List.forall_mem_cons.1 aparts
        obtain ⟨first, pairs⟩ := List.pairwise_cons.1 pairs
        rw [applyEach, apply_eq_ok_iff.2 ⟨_, build, apart, rfl⟩]
        exact ih.2 ⟨_, built, fun x hx => apart_join_left.2 ⟨aparts x hx, first x hx⟩, pairs, rfl⟩

/-! ## Numbers set aside, objects brought together -/

theorem reserve_cons_eq_ok_iff {a next : Numbering} {measure : Measure} {measures : List Measure}
    {starts : List Numbering} :
    reserve a (measure :: measures) = .ok (starts, next) ↔
      ∃ b rest, a.skip measure.allocations = .ok b ∧ reserve b measures = .ok (rest, next) ∧
        a :: rest = starts := by
  rw [reserve]
  cases a.skip measure.allocations with
  | error fault => simp
  | ok b =>
    rw [map_eq_ok_iff]
    constructor
    · rintro ⟨⟨rest, _⟩, hr, he⟩
      cases he
      exact ⟨b, rest, rfl, hr, rfl⟩
    · rintro ⟨_, rest, hb, hr, rfl⟩
      cases hb
      exact ⟨(rest, next), hr, rfl⟩

theorem combine_cons_eq_ok_iff {c l : Model} {measure : Measure} {a : Numbering}
    {rest : List (Measure × Numbering)} :
    combine c ((measure, a) :: rest) = .ok l ↔
      ∃ o b, measure.build a = .ok (o, b) ∧ Apart c o ∧ combine (c.join o) rest = .ok l := by
  rw [combine]
  cases hb : measure.build a with
  | error fault => simp
  | ok built =>
    obtain ⟨o, b⟩ := built
    have merged {n : Model} :
        (mergeBuilt c o b).model? = .ok n ↔ Apart c o ∧ c.join o = n := by
      rw [model?_eq_ok_iff]
      exact ⟨fun ⟨x, hx⟩ => ((mergeBuilt_eq_ok_iff (coherent_of_build hb)).1 hx).imp_right And.left,
        fun h => ⟨b, (mergeBuilt_eq_ok_iff (coherent_of_build hb)).2 ⟨h.1, h.2, rfl⟩⟩⟩
    by_cases apart : Apart c o
    · simp [merged.2 ⟨apart, rfl⟩, apart]
    · cases hm : (mergeBuilt c o b).model? with
      | error fault => simp [hm, apart]
      | ok n => exact absurd (merged.1 hm).1 apart

/-- What a batch brings together is coherent. -/
theorem coherent_combine {c combined : Model} (h : Coherent c)
    {parts : List (Measure × Numbering)} (hc : combine c parts = .ok combined) :
    Coherent combined := by
  induction parts generalizing c with
  | nil =>
    cases hc
    exact h
  | cons part parts ih =>
    obtain ⟨measure, a⟩ := part
    obtain ⟨o, b, build, apart, rest⟩ := combine_cons_eq_ok_iff.1 hc
    exact ih (h.join (coherent_of_build build) apart) rest

/-- The numbers set aside for a batch are those that the measures take in turn, and its objects
    come together exactly when they share no slot. -/
theorem reserve_combine_iff {c l : Model} {a next : Numbering} {measures : List Measure} :
    (∃ starts, reserve a measures = .ok (starts, next) ∧ combine c (measures.zip starts) = .ok l) ↔
      ∃ os, Built a measures os next ∧ (∀ o ∈ os, Apart c o) ∧ os.Pairwise Apart ∧
        os.foldl join c = l := by
  induction measures generalizing c a with
  | nil =>
    constructor
    · rintro ⟨starts, hr, hc⟩
      cases hr
      cases hc
      exact ⟨[], .nil _, by simp, List.Pairwise.nil, rfl⟩
    · rintro ⟨os, built, -, -, rfl⟩
      cases built
      exact ⟨[], rfl, rfl⟩
  | cons measure measures ih =>
    constructor
    · rintro ⟨_, hr, hc⟩
      obtain ⟨b, rest, hskip, hr, rfl⟩ := reserve_cons_eq_ok_iff.1 hr
      obtain ⟨o, b', build, apart, hc⟩ := combine_cons_eq_ok_iff.1 hc
      -- the number set aside is the one that building the measure leaves
      have same : b' = b := by
        have taken := skip_of_build build
        rw [hskip] at taken
        cases taken
        rfl
      subst same
      obtain ⟨os, built, aparts, pairs, rfl⟩ := ih.1 ⟨rest, hr, hc⟩
      simp only [apart_join_left, forall_and] at aparts
      exact ⟨o :: os, .cons build built, List.forall_mem_cons.2 ⟨apart, aparts.1⟩,
        List.pairwise_cons.2 ⟨aparts.2, pairs⟩, rfl⟩
    · rintro ⟨_, built, aparts, pairs, rfl⟩
      cases built with
      | cons build built =>
        obtain ⟨apart, aparts⟩ := List.forall_mem_cons.1 aparts
        obtain ⟨first, pairs⟩ := List.pairwise_cons.1 pairs
        obtain ⟨rest, hr, hc⟩ := ih.2 ⟨_, built,
          fun x hx => apart_join_left.2 ⟨aparts x hx, first x hx⟩, pairs, rfl⟩
        exact ⟨_, reserve_cons_eq_ok_iff.2 ⟨_, rest, skip_of_build build, hr, rfl⟩,
          combine_cons_eq_ok_iff.2 ⟨_, _, build, apart, hc⟩⟩

/-! ## Main result -/

theorem applyBatch_steps {m left : Model} {a next : Numbering} {measures : List Measure} :
    applyBatch m measures a = (left, .ok next) ↔
      ∃ starts combined, reserve a measures = .ok (starts, next) ∧
        combine .empty (measures.zip starts) = .ok combined ∧
        mergeBuilt m combined next = (left, .ok next) := by
  unfold applyBatch
  cases hr : reserve a measures with
  | error fault => simp
  | ok reserved =>
    obtain ⟨starts, after⟩ := reserved
    cases hc : combine .empty (measures.zip starts) with
    | error fault => simp [hc]
    | ok combined =>
      simp only [hc]
      constructor
      · intro hm
        obtain rfl := mergeBuilt_next hm
        exact ⟨starts, combined, rfl, hc, hm⟩
      · rintro ⟨_, _, he, hc', hm⟩
        cases he
        rw [hc] at hc'
        cases hc'
        exact hm

/-- A batch succeeds exactly when its measures succeed one after another, and then both leave the
    same model and the same numbering.  Models are equal as a whole: every list in order, the
    settings and the names in use. -/
theorem applyBatch_eq_ok_iff (m left : Model) (measures : List Measure) (a next : Numbering) :
    applyBatch m measures a = (left, .ok next) ↔ applyEach m a measures = (left, .ok next) := by
  rw [applyEach_eq_ok_iff, applyBatch_steps]
  constructor
  · rintro ⟨starts, combined, hr, hc, hm⟩
    obtain ⟨os, built, aparts, pairs, rfl⟩ := reserve_combine_iff.1 ⟨starts, hr, hc⟩
    have coherent := coherent_empty.foldl_join built.coherent aparts pairs
    -- joining what the batch brought together is joining its parts one by one
    obtain ⟨apart, rfl, -⟩ := (mergeBuilt_eq_ok_iff coherent).1 hm
    refine ⟨os, built, (apart_foldl_join.1 apart).2, pairs, ?_⟩
    rw [join_foldl_join, join_empty]
  · rintro ⟨os, built, aparts, pairs, rfl⟩
    have fromEmpty : ∀ o ∈ os, Apart empty o := fun o _ => apart_empty_left o
    obtain ⟨starts, hr, hc⟩ := reserve_combine_iff.2 ⟨os, built, fromEmpty, pairs, rfl⟩
    have coherent := coherent_empty.foldl_join built.coherent fromEmpty pairs
    refine ⟨starts, _, hr, hc, (mergeBuilt_eq_ok_iff coherent).2 ⟨?_, ?_, rfl⟩⟩
    · exact apart_foldl_join.2 ⟨apart_empty_right m, aparts⟩
    · rw [join_foldl_join, join_empty]

end BuildingControl.Measure
