/-
  BuildingControl.Proofs.Measure.Package

  Package sizes read from text.  A size is positive and above the one before it.
  So the sizes are positive and ascend, as many as there are texts, and only the
  largest may be infinite (`ReadsSizes`).
-/
import BuildingControl.Measure.Sizing
import BuildingControl.Proofs.Checking
import BuildingControl.Proofs.Quantity

namespace BuildingControl.Measure

open Number Quantity

/-- A package size is the flow in its text, rounded. -/
def ReadsSize (text : String) (size : Float) : Prop :=
  ∃ q, readVolumeFlow text = .ok q ∧ Rounds q.cubicMetresPerSecond size

/-- Package sizes are read one by one; they are positive and ascend, and those below the largest
    are finite. -/
structure ReadsSizes (texts : List String) (sizes : List Float) : Prop where
  reads : List.Forall₂ ReadsSize texts sizes
  count : sizes.length = texts.length
  positive : ∀ size ∈ sizes, 0 < size
  ascending : sizes.Pairwise (· < ·)
  finite : ∀ size ∈ sizes.dropLast, size.isFinite = true

namespace Sizing

/-- A size that is accepted is positive and above the one before it. -/
theorem readsSize {previous : Option Float} {text : String} {size : Float}
    (h : readSize previous text = .ok size) : ReadsSize text size ∧ 0 < size ∧
      ∀ p, previous = some p → p.isNaN = false → p < size := by
  unfold readSize at h
  split at h
  · cases h
  · next q read =>
    dsimp only at h
    split at h
    · cases h
    · next positive =>
      split at h
      · cases h
      · next larger =>
        cases h
        have rounded : Rounds q.cubicMetresPerSecond (roundTo q.cubicMetresPerSecond 6) := by
          refine rounds_of_ne (isNaN_of_readVolumeFlow read) fun below => ?_
          rw [below] at positive
          exact positive (by decide +kernel)
        refine ⟨⟨q, read, rounded⟩, ?_, fun p hp number => ?_⟩
        · exact lt_of_not_le (by decide +kernel) rounded.isNumber positive
        · subst hp
          exact lt_of_not_le number rounded.isNumber (by simpa using larger)

theorem forall₂_of_readSizes {previous : Option Float} {texts : List String}
    {sizes : List Float} (h : readSizes previous texts = .ok sizes) :
    List.Forall₂ ReadsSize texts sizes ∧ (∀ size ∈ sizes, 0 < size) ∧
      (∀ p, previous = some p → p.isNaN = false → ∀ size ∈ sizes, p < size) ∧
      sizes.Pairwise (· < ·) := by
  induction texts generalizing previous sizes with
  | nil =>
    cases h
    exact ⟨.nil, by simp, by simp, .nil⟩
  | cons text texts ih =>
    rw [readSizes] at h
    split at h
    · cases h
    · next size accepted =>
      obtain ⟨rest, later, rfl⟩ := map_eq_ok_iff.1 h
      obtain ⟨here, positive, above⟩ := readsSize accepted
      obtain ⟨reads, others, larger, ascending⟩ := ih later
      have number : size.isNaN = false := by
        obtain ⟨q, -, rounded⟩ := here
        exact rounded.isNumber
      have largest := larger size rfl number
      refine ⟨.cons here reads, List.forall_mem_cons.2 ⟨positive, others⟩, fun p hp hn => ?_,
        List.pairwise_cons.2 ⟨largest, ascending⟩⟩
      have first := above p hp hn
      exact List.forall_mem_cons.2 ⟨first, fun q hq => lt_trans first (largest q hq)⟩

theorem readsSizes {s : Sizing} {sizes : List Float} (h : s.sizes = .ok sizes) :
    ReadsSizes s.packageSizes sizes := by
  obtain ⟨reads, positive, -, ascending⟩ := forall₂_of_readSizes h
  refine ⟨reads, reads.length_eq.symm, positive, ascending, fun size mem => ?_⟩
  -- such a size lies between zero and the largest
  obtain rfl | ⟨init, last, rfl⟩ := List.eq_nil_or_concat' sizes
  · cases mem
  · rw [List.dropLast_concat] at mem
    have below := (List.pairwise_append.1 ascending).2.2 size mem last List.mem_cons_self
    exact isFinite_of_lt_of_lt (positive size (List.mem_append_left _ mem)) below

/-- A size that is not finite is infinite. -/
theorem eq_infinity_of_mem {texts : List String} {sizes : List Float} (h : ReadsSizes texts sizes)
    {size : Float} (mem : size ∈ sizes) (special : size.isFinite = false) : size = infinity := by
  obtain ⟨text, -, q, -, rounded⟩ := exists_of_mem_forall₂ h.reads.flip mem
  exact rounded.otherwise special

end Sizing

end BuildingControl.Measure
