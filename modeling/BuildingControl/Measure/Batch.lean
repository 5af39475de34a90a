/-
  BuildingControl.Measure.Batch

  Measures applied to a model, one by one or as a batch.  A measure is built
  into a model of its own first, and only its finished objects are merged.
-/
import BuildingControl.Measure.Basic

namespace BuildingControl.Measure

open Erl Model

/-- Merges the objects of a measure into a model; the numbering after them is the result. -/
def mergeBuilt (m : Model) (objects : Model) (next : Numbering) : Attempt Fault Numbering :=
  match m.merge objects with
  | (merged, .ok ()) => (merged, .ok next)
  | (merged, .error fault) => (merged, .error (.program fault))

/-- Applies a measure; the numbering after it is the result. -/
def apply (m : Model) (measure : Measure) (a : Numbering) : Attempt Fault Numbering :=
  match measure.build a with
  | .error fault => (m, .error fault)
  | .ok (objects, next) => mergeBuilt m objects next

/-- Applies measures one after another, each with the numbering that the one before left. -/
def applyEach (m : Model) (a : Numbering) : List Measure → Attempt Fault Numbering
  | [] => (m, .ok a)
  | measure :: rest =>
    match apply m measure a with
    | (left, .error fault) => (left, .error fault)
    | (merged, .ok next) => applyEach merged next rest

/-- The numbering each measure starts from, and the one after all of them. -/
def reserve (a : Numbering) : List Measure → Except Fault (List Numbering × Numbering)
  | [] => .ok ([], a)
  | measure :: rest =>
    match a.skip measure.allocations with
    | .error fault => .error (.program fault)
    | .ok next => (reserve next rest).map fun r => (a :: r.1, r.2)

/-- The objects of measures with their numberings, all in one model. -/
def combine (combined : Model) : List (Measure × Numbering) → Except Fault Model
  | [] => .ok combined
  | (measure, a) :: rest =>
    match measure.build a with
    | .error fault => .error fault
    | .ok (objects, next) =>
      match (mergeBuilt combined objects next).model? with
      | .error fault => .error fault
      | .ok merged => combine merged rest

/-- Applies a batch of measures: numbers are set aside for every measure first, then each measure
    is built on its own, and their objects come in together. -/
def applyBatch (m : Model) (measures : List Measure) (a : Numbering) : Attempt Fault Numbering :=
  match reserve a measures with
  | .error fault => (m, .error fault)
  | .ok (starts, next) =>
    match combine .empty (measures.zip starts) with
    | .error fault => (m, .error fault)
    | .ok combined => mergeBuilt m combined next

end BuildingControl.Measure
