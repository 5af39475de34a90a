/-
  BuildingControl.Proofs.Model.Kind

  The eleven lists of a model seen as one family, indexed by the kind of object.
  Adding an object extends the list of its own kind and no other, so facts about
  a model are stated once for every kind:

    * `objects_push` says what one added object does to each list;
    * `foldl_push_objects` says the same of any number of objects;
    * `ext_objects` says that the lists, the settings and the names in use are
      all there is to a model.

  Requests are the exception: one that is there already is dropped.
-/
import BuildingControl.Model.Merge
import Mathlib.Data.List.Perm.Basic

namespace BuildingControl.Model

open Erl

/-- The kinds of objects, in the order in which a merge adds them. -/
inductive ObjectKind
  | sensor
  | actuator
  | global
  | trend
  | internal
  | construction
  | output
  | program
  | subroutine
  | manager
  | request
  deriving DecidableEq

/-- Every kind, in order. -/
def ObjectKind.all : List ObjectKind :=
  [.sensor, .actuator, .global, .trend, .internal, .construction, .output, .program, .subroutine,
   .manager, .request]

/-- The kind of the object that a declaration adds. -/
def Declaration.kind : Declaration → ObjectKind
  | .sensor _ => .sensor
  | .actuator _ => .actuator
  | .global _ => .global
  | .trend _ => .trend
  | .internal _ => .internal
  | .construction _ => .construction
  | .output _ => .output
  | .program _ => .program
  | .subroutine _ => .subroutine
  | .manager _ => .manager
  | .request _ => .request

/-- The objects of one kind, in order. -/
def objects (m : Model) : ObjectKind → List Declaration
  | .sensor => m.sensors.map .sensor
  | .actuator => m.actuators.map .actuator
  | .global => m.globals.map .global
  | .trend => m.trends.map .trend
  | .internal => m.internals.map .internal
  | .construction => m.constructions.map .construction
  | .output => m.outputs.map .output
  | .program => m.programs.map .program
  | .subroutine => m.subroutines.map .subroutine
  | .manager => m.managers.map .manager
  | .request => m.requests.map .request

/-! ## The lists as one family -/

theorem ObjectKind.mem_all (k : ObjectKind) : k ∈ ObjectKind.all := by
  cases k <;> decide

/-- The declarations of a model are its objects, kind by kind. -/
theorem declarations_eq_flatMap (m : Model) :
    m.declarations = ObjectKind.all.flatMap m.objects := by
  simp [declarations, ObjectKind.all, objects]

theorem kind_of_mem_objects {m : Model} {k : ObjectKind} {d : Declaration}
    (h : d ∈ m.objects k) : d.kind = k := by
  cases k <;>
  · simp only [objects, List.mem_map] at h
    obtain ⟨_, _, rfl⟩ := h
    rfl

theorem mem_declarations {m : Model} {d : Declaration} :
    d ∈ m.declarations ↔ d ∈ m.objects d.kind := by
  rw [declarations_eq_flatMap, List.mem_flatMap]
  constructor
  · rintro ⟨k, _, h⟩
    rwa [kind_of_mem_objects h]
  · intro h
    exact ⟨d.kind, d.kind.mem_all, h⟩

@[simp] theorem objects_empty (k : ObjectKind) : empty.objects k = [] := by
  cases k <;> rfl

/-- The objects of one kind are the declarations of that kind. -/
theorem filter_declarations (m : Model) (k : ObjectKind) :
    m.declarations.filter (fun d => d.kind = k) = m.objects k := by
  have own : ∀ j, (m.objects j).filter (fun d => d.kind = k) = if j = k then m.objects j else [] := by
    intro j
    by_cases h : j = k
    · rw [if_pos h, List.filter_eq_self]
      intro d hd
      simpa [h] using kind_of_mem_objects hd
    · rw [if_neg h, List.filter_eq_nil_iff]
      intro d hd
      simpa [kind_of_mem_objects hd] using h
  rw [declarations_eq_flatMap, List.filter_flatMap]
  simp only [own]
  cases k <;> simp [ObjectKind.all]

/-! ## A model is its lists, its settings and its names -/

/-- Two models with the same objects of every kind, the same settings and the same names in use
    are one model. -/
theorem ext_objects {m n : Model} (objects : ∀ k, m.objects k = n.objects k)
    (reporting : m.reporting = n.reporting) (names : m.names = n.names)
    (managers : m.managerNames = n.managerNames) (outputs : m.outputNames = n.outputNames) :
    m = n := by
  have back {α : Type} {make : α → Declaration} (inj : ∀ x y, make x = make y → x = y)
      {xs ys : List α} (h : xs.map make = ys.map make) : xs = ys :=
    List.map_injective_iff.2 (fun x y => inj x y) h
  -- constructors are injective: equal lists of declarations are equal lists of objects
  have h1 := back (by simp) (objects .sensor)
  have h2 := back (by simp) (objects .actuator)
  have h3 := back (by simp) (objects .global)
  have h4 := back (by simp) (objects .trend)
  have h5 := back (by simp) (objects .internal)
  have h6 := back (by simp) (objects .construction)
  have h7 := back (by simp) (objects .output)
  have h8 := back (by simp) (objects .program)
  have h9 := back (by simp) (objects .subroutine)
  have h10 := back (by simp) (objects .manager)
  have h11 := back (by simp) (objects .request)
  cases m
  cases n
  simp_all

/-! ## Adding objects -/

/-- Whether an object is dropped when it is added: a request that is there already. -/
def drops (m : Model) : Declaration → Bool
  | .request r => m.hasRequest r
  | _ => false

theorem push_of_drops {m : Model} {d : Declaration} (h : m.drops d = true) : m.push d = m := by
  cases d with
  | request r => exact if_pos h
  | _ => cases h

/-- An object that is not dropped comes last among those of its kind. -/
theorem objects_push {m : Model} {d : Declaration} (h : m.drops d = false) (k : ObjectKind) :
    (m.push d).objects k = m.objects k ++ if d.kind = k then [d] else [] := by
  cases d with
  | request r =>
    have hr : m.hasRequest r = false := h
    cases k <;> simp [push, hr, objects, Declaration.kind]
  | _ => cases k <;> simp [push, register, objects, Declaration.kind]

theorem declarations_push_perm {m : Model} {d : Declaration} (h : m.drops d = false) :
    (m.push d).declarations.Perm (d :: m.declarations) := by
  have one : ObjectKind.all.flatMap (fun k => if d.kind = k then [d] else []) = [d] := by
    cases d <;> rfl
  calc (m.push d).declarations
      = ObjectKind.all.flatMap fun k => m.objects k ++ if d.kind = k then [d] else [] := by
        rw [declarations_eq_flatMap, funext (objects_push h)]
    _ |>.Perm (m.declarations ++ [d]) := by
        have apart := List.flatMap_append_perm ObjectKind.all m.objects
          fun k => if d.kind = k then [d] else []
        rw [one, ← declarations_eq_flatMap] at apart
        exact apart.symm
    _ |>.Perm (d :: m.declarations) := List.perm_append_singleton d m.declarations

/-- Any number of added objects: each list gets those of its kind, in order. -/
theorem foldl_push_objects (m : Model) (ds : List Declaration) {k : ObjectKind}
    (hk : k ≠ .request) :
    (ds.foldl push m).objects k = m.objects k ++ ds.filter (fun d => d.kind = k) := by
  induction ds generalizing m with
  | nil => simp
  | cons d ds ih =>
    rw [List.foldl_cons, ih, List.filter_cons]
    by_cases hd : m.drops d = true
    · -- a dropped object is a request, which list `k` would not have held either
      have hn : d.kind ≠ k := by
        intro e
        cases d <;> simp_all [drops, Declaration.kind]
      rw [push_of_drops hd]
      simp [hn]
    · rw [objects_push (by simpa using hd)]
      by_cases hn : d.kind = k <;> simp [hn]

/-- Adding an object never touches the settings. -/
@[simp] theorem push_reporting (m : Model) (d : Declaration) :
    (m.push d).reporting = m.reporting := by
  cases d with
  | request r => simp only [push]; split <;> rfl
  | _ => simp only [push, register]

end BuildingControl.Model
