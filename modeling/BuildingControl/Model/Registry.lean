/-
  BuildingControl.Model.Registry

  Which keys are taken.  A registry says what each key in use stands for; a key
  set only holds keys.  Both are functions of the key, so two of them are equal
  exactly when they answer every question alike.
-/
import BuildingControl.Erl.Fault

namespace BuildingControl.Model

open Erl

/-! ## Keys that stand for something -/

/-- What the keys in use stand for. -/
structure Registry where
  find? : String → Option NameClass

namespace Registry

/-- No key is in use. -/
def empty : Registry := ⟨fun _ => none⟩

/-- The registry with one more key. -/
def insert (r : Registry) (key : String) (cls : NameClass) : Registry :=
  ⟨fun k => if key = k then some cls else r.find? k⟩

@[ext] theorem ext {r s : Registry} (h : ∀ k, r.find? k = s.find? k) : r = s := by
  cases r
  cases s
  exact congrArg Registry.mk (funext h)

@[simp] theorem find?_empty (k : String) : empty.find? k = none := rfl

@[simp] theorem find?_insert (r : Registry) (key k : String) (cls : NameClass) :
    (r.insert key cls).find? k = if key = k then some cls else r.find? k := rfl

end Registry

/-! ## Keys alone -/

/-- A set of keys. -/
structure KeySet where
  contains : String → Bool

namespace KeySet

/-- No key. -/
def empty : KeySet := ⟨fun _ => false⟩

/-- The set with one more key. -/
def insert (s : KeySet) (key : String) : KeySet :=
  ⟨fun k => key == k || s.contains k⟩

@[ext] theorem ext {s t : KeySet} (h : ∀ k, s.contains k = t.contains k) : s = t := by
  cases s
  cases t
  exact congrArg KeySet.mk (funext h)

@[simp] theorem contains_empty (k : String) : empty.contains k = false := rfl

@[simp] theorem contains_insert (s : KeySet) (key k : String) :
    (s.insert key).contains k = (key == k || s.contains k) := rfl

end KeySet

end BuildingControl.Model
