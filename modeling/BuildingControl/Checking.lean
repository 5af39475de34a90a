/-
  BuildingControl.Checking

  Steps that can fail.  Of several steps the first fault counts; a list is checked
  from the front.
-/

namespace BuildingControl

/-! ## Single steps -/

/-- A step and what follows it succeed together. -/
theorem bind_eq_ok_iff {x : Except ε α} {f : α → Except ε β} {b : β} :
    (x >>= f) = .ok b ↔ ∃ a, x = .ok a ∧ f a = .ok b := by
  cases x with
  | error e => exact ⟨nofun, fun ⟨_, h, _⟩ => nomatch h⟩
  | ok a => exact ⟨fun h => ⟨a, rfl, h⟩, fun ⟨_, ha, h⟩ => by cases ha; exact h⟩

theorem check_bind_eq_ok_iff {x : Except ε Unit} {f : Unit → Except ε β} {b : β} :
    (x >>= f) = .ok b ↔ x = .ok () ∧ f () = .ok b := by
  rw [bind_eq_ok_iff]
  exact ⟨fun ⟨_, h⟩ => h, fun h => ⟨(), h⟩⟩

theorem map_eq_ok_iff {x : Except ε α} {f : α → β} {b : β} :
    x.map f = .ok b ↔ ∃ a, x = .ok a ∧ f a = b := by
  cases x <;> simp [Except.map]

theorem mapError_eq_ok_iff {x : Except ε α} {f : ε → δ} {a : α} :
    x.mapError f = .ok a ↔ x = .ok a := by
  cases x with
  | error e => exact ⟨nofun, nofun⟩
  | ok b => exact ⟨fun h => by cases h; rfl, fun h => by cases h; rfl⟩

/-! ## Lists -/

/-- The results of a check on every element, or the first fault. -/
def eachOk (f : α → Except ε β) : List α → Except ε (List β)
  | [] => .ok []
  | x :: xs =>
    match f x with
    | .error e => .error e
    | .ok y => (eachOk f xs).map (y :: ·)

/-- A check without a result on every element. -/
def allOk (f : α → Except ε Unit) : List α → Except ε Unit
  | [] => .ok ()
  | x :: xs =>
    match f x with
    | .error e => .error e
    | .ok () => allOk f xs

/-- All is well when it is well for every element. -/
theorem allOk_eq_ok_iff {f : α → Except ε Unit} {xs : List α} :
    allOk f xs = .ok () ↔ ∀ x ∈ xs, f x = .ok () := by
  induction xs with
  | nil => simp [allOk]
  | cons x xs ih =>
    rw [allOk, List.forall_mem_cons]
    split
    · next e h => simp [h]
    · next h => simp [h, ih]

/-- A list of results has one result for each element. -/
theorem length_of_eachOk {f : α → Except ε β} {xs : List α} {ys : List β}
    (h : eachOk f xs = .ok ys) : ys.length = xs.length := by
  induction xs generalizing ys with
  | nil => cases h; rfl
  | cons x xs ih =>
    rw [eachOk] at h
    split at h
    · cases h
    · cases hr : eachOk f xs with
      | error e => simp [hr, Except.map] at h
      | ok zs =>
        rw [hr] at h
        cases h
        simp [ih hr]

end BuildingControl
