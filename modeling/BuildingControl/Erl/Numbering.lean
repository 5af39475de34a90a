/-
  BuildingControl.Erl.Numbering

  Numbers for generated names.  Objects that come once per zone or loop are
  named `Name1`, `Name2`, …; a numbering is the next free number, handed on by
  value.  Numbers are positive and below 2^32.
-/
import BuildingControl.Erl.Name

namespace BuildingControl.Erl

/-- The largest number of a numbering. -/
def Numbering.limit : Nat := Nat.pow 2 32 - 1

/-- The next free number. -/
structure Numbering where
  next : Nat
  pos : 0 < next
  le_limit : next ≤ Numbering.limit
  deriving DecidableEq

namespace Numbering

/-- The numbering that starts at one. -/
def first : Numbering := ⟨1, by decide, by decide⟩

/-- The numbering that starts at a given number. -/
def startingAt? (n : Nat) : Option Numbering :=
  if h : 0 < n ∧ n ≤ limit then some ⟨n, h.1, h.2⟩ else none

/-- Sets `count` numbers aside. -/
def skip (a : Numbering) (count : Nat) : Except Fault Numbering :=
  if h : a.next + count ≤ limit then .ok ⟨a.next + count, Nat.lt_add_right count a.pos, h⟩
  else .error (.argument .numberingExhausted)

/-- Takes the next number. -/
def advance (a : Numbering) : Except Fault (Nat × Numbering) :=
  (a.skip 1).map fun b => (a.next, b)

/-- Takes `count` numbers one after another; the numbering after them. -/
def advanceBy (a : Numbering) : Nat → Except Fault Numbering
  | 0 => .ok a
  | count + 1 =>
    match a.advance with
    | .ok (_, b) => b.advanceBy count
    | .error fault => .error fault

/-- Takes the next number and makes a name of it. -/
def name (a : Numbering) (make : Nat → String) : Except Fault (Name × Numbering) := do
  let (n, b) ← a.advance
  let name ← Name.ofText? (make n)
  return (name, b)

@[simp] theorem next_first : first.next = 1 := rfl

theorem next_of_skip {a b : Numbering} {count : Nat} (h : a.skip count = .ok b) :
    b.next = a.next + count := by
  unfold skip at h
  split at h
  · cases h; rfl
  · cases h

/-- Numbers taken one by one run out exactly when setting them aside at once fails. -/
theorem advanceBy_eq_skip (a : Numbering) (count : Nat) : a.advanceBy count = a.skip count := by
  induction count generalizing a with
  | zero => simp [advanceBy, skip, a.le_limit]
  | succ count ih =>
    unfold advanceBy advance
    by_cases h : a.next + 1 ≤ limit
    · have one : a.skip 1 = .ok ⟨a.next + 1, Nat.lt_add_right 1 a.pos, h⟩ := dif_pos h
      simp only [one, Except.map, ih]
      simp [skip, Nat.add_comm count 1, Nat.add_assoc]
    · have none : a.skip 1 = .error (.argument .numberingExhausted) := dif_neg h
      have all : ¬ a.next + (count + 1) ≤ limit := by omega
      have none' : a.skip (count + 1) = .error (.argument .numberingExhausted) := dif_neg all
      simp only [none, none', Except.map]

/-- Asking for more numbers than there are fails like asking for all of them. -/
theorem skip_min_limit (a : Numbering) (count : Nat) : a.skip (min count limit) = a.skip count := by
  by_cases h : count ≤ limit
  · rw [Nat.min_eq_left h]
  · have pos := a.pos
    have none : ¬ a.next + limit ≤ limit := by omega
    have all : ¬ a.next + count ≤ limit := by omega
    rw [Nat.min_eq_right (by omega), skip, dif_neg none, skip, dif_neg all]

end Numbering

end BuildingControl.Erl
