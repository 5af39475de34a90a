/-
  BuildingControl.Proofs.Measure.Check

  Whether a measure that builds is in order.  Everything its programs refer to is
  declared or local, whatever the arguments are.  What the builder does not look
  at is a program named by the user after a local name: the name is free when it
  is declared, since local names are declared nowhere, and then the program
  assigns to itself.  `check_of_build` says that this is all that can go wrong.
-/
import BuildingControl.Proofs.Measure.Closed
import BuildingControl.Proofs.Measure.Curve

namespace BuildingControl.Measure

open Erl Model

/-- The names that the programs of a measure assign to and do not declare. -/
def locals (measure : Measure) (a : Numbering) : List String :=
  match measure with
  | .comfortHalt _ => Comfort.locals
  | .discretePackageSizing _ => Sizing.locals
  | .zoneAverageTemperature _ => ZoneAverage.locals
  | .curveResultOverride c => c.locals a
  | .thermochromicWindow _ => []
  | .condenserLoopOverride _ => []
  | .vrfModeOverride _ => []

/-- The names that the arguments of a measure give to its programs. -/
def programNames : Measure → List String
  | .condenserLoopOverride c => [c.program]
  | .discretePackageSizing s => [s.program]
  | .zoneAverageTemperature z => [z.program]
  | .curveResultOverride c => [c.program]
  | .vrfModeOverride v => [v.initProgram, v.program]
  | .thermochromicWindow _ => []
  | .comfortHalt _ => []

section Run

variable {measure : Measure} {a : Numbering} {m : Model}
  (h : (measure.script a).run .empty = .ok m)

include h

theorem closed_of_run : m.Closed (measure.locals a) := by
  cases measure with
  | thermochromicWindow w => exact Thermochromic.closed h
  | condenserLoopOverride c => exact Condenser.closed h
  | comfortHalt c => exact Comfort.closed h
  | discretePackageSizing s => exact Sizing.closed h
  | zoneAverageTemperature z => exact ZoneAverage.closed h
  | curveResultOverride c => exact Curve.closed h
  | vrfModeOverride v => exact Vrf.closed h

/-- No object takes a local name, but for the programs that the user names. -/
theorem clear_of_run :
    OnResults (Script.ClearOf (measure.locals a) measure.programNames) (measure.script a) := by
  cases measure with
  | thermochromicWindow w => exact Script.clear_of_no_locals
  | condenserLoopOverride c => exact Script.clear_of_no_locals
  | comfortHalt c => exact Comfort.clear h
  | discretePackageSizing s => exact Sizing.clear h
  | zoneAverageTemperature z => exact ZoneAverage.clear h
  | curveResultOverride c => exact Curve.clear h
  | vrfModeOverride v => exact Script.clear_of_no_locals

theorem declares_programNames : ∀ p ∈ measure.programNames, m.Declares p .program := by
  intro p hp
  cases measure with
  | thermochromicWindow w => cases hp
  | comfortHalt c => cases hp
  | condenserLoopOverride c =>
    rw [List.mem_singleton.1 hp]
    exact Condenser.declares_program h
  | discretePackageSizing s =>
    rw [List.mem_singleton.1 hp]
    exact Sizing.declares_program h
  | zoneAverageTemperature z =>
    rw [List.mem_singleton.1 hp]
    exact ZoneAverage.declares_program h
  | curveResultOverride c =>
    rw [List.mem_singleton.1 hp]
    exact Curve.declares_program h
  | vrfModeOverride v =>
    rcases List.mem_cons.1 hp with rfl | hp
    · exact Vrf.declares_initProgram h
    · rw [List.mem_singleton.1 hp]
      exact Vrf.declares_program h

end Run

/-- A measure that builds is in order exactly when no program that the user names has a local
    name of the generated programs, in any case; and an assignment to such a name is the only
    fault that it can have.  So all that its programs read is declared or local, and everything
    else that it refers to is there. -/
theorem check_of_build {measure : Measure} {a next : Numbering} {m : Model}
    (h : measure.build a = .ok (m, next)) :
    (m.check = .ok () ↔ ∀ l ∈ measure.locals a, ∀ p ∈ measure.programNames,
      Text.sameLetters l p = false) ∧
    ∀ fault, m.check = .error fault → ∃ l ∈ measure.locals a, ∃ p ∈ measure.programNames,
      Text.sameLetters l p = true ∧ ∃ place, fault = .readOnly l place .program := by
  have run := (build_eq_ok_iff.1 h).1
  exact Script.check_of_run run (closed_of_run run) (clear_of_run run) (declares_programNames run)

/-- An average over one zone, its program named after a local name. -/
def selfNamed : Measure :=
  .zoneAverageTemperature { ZoneAverage.default with zones := ["Core"], program := "SUMNumerator" }

/-- The measure builds, and its program assigns to a program. -/
theorem check_selfNamed : ∃ (m : Model) (next : Numbering),
    selfNamed.build .first = .ok (m, next) ∧
      ∃ place, m.check = .error (.readOnly "SumNumerator" place .program) := by
  have builds : (selfNamed.build .first).toOption.isSome = true := by decide +kernel
  obtain ⟨⟨m, next⟩, built⟩ := Option.isSome_iff_exists.1 builds
  have built := eq_ok_of_toOption built
  obtain ⟨fine, faults⟩ := check_of_build built
  refine ⟨m, next, built, ?_⟩
  cases checked : m.check with
  | ok u =>
    have apart := fine.1 checked "SumNumerator" (by decide) "SUMNumerator" (by decide)
    have same : Text.sameLetters "SumNumerator" "SUMNumerator" = true := by decide
    rw [same] at apart
    cases apart
  | error fault =>
    obtain ⟨l, hl, p, hp, same, place, rfl⟩ := faults fault checked
    refine ⟨place, ?_⟩
    -- the other local name is not that of the program
    have only : ∀ l ∈ selfNamed.locals .first, ∀ p ∈ selfNamed.programNames,
        Text.sameLetters l p = true → l = "SumNumerator" := by decide
    rw [only l hl p hp same]

end BuildingControl.Measure
