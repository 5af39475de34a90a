/-
  BuildingControl.Proofs.Document.Decoding

  What can be said of anything that was decoded: a field comes from a part of the
  document or is the value it has if left out, the elements of a list come from
  items, and whole numbers are in the range of counts.
-/
import BuildingControl.Document.Yaml.Reading

namespace BuildingControl.Document

open Source

/-! ## Fields and lists -/

theorem exists_of_required {ν α : Type} {fields : List (String × ν)} {name : String}
    {decode : ν → Option α} {a : α} (h : required fields name decode = some a) :
    ∃ v, decode v = some a := by
  unfold required at h
  split at h
  next v _ => exact ⟨v, h⟩
  next => cases h

theorem eq_or_exists_of_fallback {ν α : Type} {fields : List (String × ν)} {name : String}
    {default : α} {decode : ν → Option α} {a : α}
    (h : fallback fields name default decode = some a) :
    a = default ∨ ∃ v, decode v = some a := by
  unfold fallback at h
  split at h
  next v _ => exact .inr ⟨v, h⟩
  next => exact .inl (Option.some.inj h).symm

/-- Every element of a decoded list was decoded from something. -/
theorem exists_of_mem_listOf {ν α : Type} [Source ν] {decode : ν → Option α} {v : ν} {as : List α}
    (h : listOf decode v = some as) {a : α} (ha : a ∈ as) : ∃ w, decode w = some a := by
  obtain ⟨items, -, decoded⟩ := Option.bind_eq_some_iff.1 h
  clear h
  induction items generalizing as with
  | nil =>
    cases decoded
    cases ha
  | cons w rest ih =>
    simp only [List.mapM_cons, Option.bind_eq_bind, Option.bind_eq_some_iff] at decoded
    obtain ⟨b, hb, bs, hbs, same⟩ := decoded
    cases same
    rcases List.mem_cons.1 ha with rfl | ha
    · exact ⟨w, hb⟩
    · exact ih ha hbs

theorem lt_countLimit_of_countOfInt? {n : Int} {k : Nat} (h : countOfInt? n = some k) :
    k < countLimit := by
  unfold countOfInt? at h
  split at h
  next range =>
    cases h
    have nonneg : (n.toNat : Int) = n := Int.toNat_of_nonneg range.1
    exact_mod_cast nonneg ▸ range.2
  next => cases h

/-! ## Counts -/

/-- A kind of document part whose whole numbers are counts. -/
def Counts (ν : Type) [Source ν] : Prop :=
  ∀ (v : ν) (n : Nat), count? v = some n → n < countLimit

theorem counts_value : Counts Value := by
  intro v n h
  cases v with
  | int k => exact lt_countLimit_of_countOfInt? h
  | _ => cases h

theorem counts_node : Counts Yaml.Node := by
  intro v n h
  cases v with
  | scalar tag style cs =>
    change (if Yaml.isReadable "int" tag style = true then (Yaml.positiveWhole? cs).bind countOfInt?
      else none) = some n at h
    split at h
    next =>
      obtain ⟨k, -, hk⟩ := Option.bind_eq_some_iff.1 h
      exact lt_countLimit_of_countOfInt? hk
    next => cases h
  | _ => cases h

end BuildingControl.Document
