/-
  BuildingControl.Proofs.Measure.Argument

  What a measure that accepted its arguments can still fail for.  A finite package
  size is never what sizing fails for, and an infinite one always is; thresholds
  are in `Proofs/Measure/Threshold`.  Together: an argument that was accepted is
  what a measure fails for only if it is infinite (`build_of_accepted`).
-/
import BuildingControl.Proofs.Measure.Sizing
import BuildingControl.Proofs.Measure.Threshold

namespace BuildingControl.Measure

open Erl Model Number Quantity

/-! ## Package sizes -/

namespace Sizing

/-- With an infinite size among them, picking a package fails for that size. -/
theorem build_selection_infinity {texts : List String} {sizes : List Float}
    (h : ReadsSizes texts sizes) (mem : infinity ∈ sizes) :
    (selection sizes).build = .error (.nonFinite ⟨"rule boundary", infinity⟩) := by
  have name (text : String) (valid : nameReason? text = none) : nameFaults text = [] := by
    simp [nameFaults, valid]
  have targets : ∀ r ∈ (selection sizes).rules, nameFaults r.target = [] := by
    intro r hr
    obtain ⟨size, -, rfl⟩ := List.mem_map.1 hr
    exact name discreteFlow (by decide)
  have rows : (selection sizes).rules.flatMap (fun r => boundaryFaults r.boundary) =
      sizes.flatMap boundaryFaults := List.flatMap_map _ _ _
  refine TableText.build_eq_nonFinite rfl (name calculatedFlow (by decide)) targets
    (name "dummy" (by decide)) ?_
  rw [rows]
  -- only the largest can be infinite
  obtain rfl | ⟨init, last, rfl⟩ := List.eq_nil_or_concat' sizes
  · cases mem
  have finite : ∀ size ∈ init, size.isFinite = true := by
    simpa [List.dropLast_concat] using h.finite
  have largest : last = infinity := by
    rcases List.mem_append.1 mem with before | same
    · have contradiction := finite infinity before
      rw [isFinite_infinity] at contradiction
      cases contradiction
    · exact (List.mem_singleton.1 same).symm
  have front : init.flatMap boundaryFaults = [] := by
    refine List.flatMap_eq_nil_iff.2 fun size hsize => ?_
    rw [boundaryFaults, if_pos (finite size hsize)]
  rw [List.flatMap_append, front, largest]
  simp [boundaryFaults, isFinite_infinity]

theorem spelled_loopScript (airLoop : String) : (loopScript airLoop).Spelled :=
  (Script.spelled_internal _ _ _).append (Script.spelled_actuator _ _ _ _)

theorem blames_loopBody {P : NonFinite → Prop} (airLoop : String) :
    OnFaults (Erl.Fault.Blames P) (loopBody airLoop) := by
  have textual (fault : Erl.Fault) : fault.isTextual = true → fault.Blames P :=
    Erl.Fault.blames_of_isTextual
  have line (target value : String) := Draft.onFaults_set textual target value
  simp only [loopBody, onFaults_append]
  exact ⟨⟨line _ _, Draft.onFaults_run textual _⟩, line _ _⟩

/-- The script of loops whose package sizes have been read. -/
theorem script_eq {s : Sizing} {sizes : List Float} (some : s.airLoops ≠ [])
    (hs : s.sizes = .ok sizes) :
    s.script = Script.global discreteFlow ++ Script.global calculatedFlow ++
      (Script.subroutine select (selection sizes).build ++ (s.airLoops.flatMap loopScript ++
      (Script.program s.program (s.airLoops.flatMap loopBody) ++
      Script.manager s.manager .endOfSystemSizing s.program))) := by
  rw [script, if_neg (by simpa using some), hs]
  simp only [List.append_assoc]

/-- Sizing fails for no number but an infinite size. -/
theorem blames_sizes {s : Sizing} {sizes : List Float} (hs : s.sizes = .ok sizes) (a : Numbering) :
    OnFault (Fault.Blames fun n => infinity ∈ sizes ∧ n = ⟨"rule boundary", infinity⟩)
      (build (discretePackageSizing s) a) := by
  refine blames_build ?_
  show OnFaults _ s.script
  by_cases some : s.airLoops = []
  · rw [script, if_pos (by simpa using some)]
    exact onFaults_singleton.2 (onFault_error.2 (Fault.blames_of_eq_none rfl))
  rw [script_eq some hs]
  simp only [onFaults_append]
  refine ⟨⟨(Script.spelled_global _).blames, (Script.spelled_global _).blames⟩,
    Script.blames_subroutine _ ?_, onFaults_flatMap.2 fun l _ => (spelled_loopScript l).blames,
    Script.blames_program _ (onFaults_flatMap.2 fun l _ => blames_loopBody l),
    (Script.spelled_manager _ _ _).blames⟩
  refine TableText.blames_build fun r hr special => ?_
  obtain ⟨size, mem, rfl⟩ := List.mem_map.1 hr
  have same := eq_infinity_of_mem (readsSizes hs) mem special
  exact ⟨same ▸ mem, by rw [same]⟩

/-- With an infinite size among them, sizing fails for that size. -/
theorem build_infinity {s : Sizing} {sizes : List Float} (hs : s.sizes = .ok sizes)
    (mem : infinity ∈ sizes) (some : s.airLoops ≠ []) (a : Numbering) :
    build (discretePackageSizing s) a =
      .error (.program (.nonFinite ⟨"rule boundary", infinity⟩)) := by
  have globals : ((Script.global discreteFlow ++ Script.global calculatedFlow).run
      Model.empty).isOk = true := by decide +kernel
  obtain ⟨m, ahead⟩ := exists_of_isOk globals
  have named : Name.ofText? select = .ok selectName := Name.ofText?_eq_ok_iff.2 rfl
  have faulty : Script.subroutine select (selection sizes).build =
      [.error (.program (.nonFinite ⟨"rule boundary", infinity⟩))] := by
    rw [Script.subroutine, named, build_selection_infinity (readsSizes hs) mem]
    rfl
  have stopped : ((discretePackageSizing s).script a).run .empty =
      .error (.program (.nonFinite ⟨"rule boundary", infinity⟩)) := by
    show s.script.run .empty = _
    rw [script_eq some hs, faulty]
    exact Script.run_append_error ahead
  rw [build, stopped]

end Sizing

/-! ## Accepted arguments -/

/-- What becomes of the thresholds and package sizes that measures accept.  A threshold is a
    number, and finite unless it is too large to be rounded; a size is positive and larger than the
    one before, and finite unless its text is too large for a number or it is too large to be
    rounded.  A measure fails for a threshold or a size only if it is infinite.  An infinite size
    always is what the measure fails for, and so is an infinite threshold wherever another would do;
    a measure with such an argument is never built. -/
theorem build_of_accepted (condenser : Condenser) (curve : Curve) (sizing : Sizing)
    (a : Numbering) :
    (∀ threshold, condenser.thresholdCelsius = .ok threshold →
      ReadsThreshold condenser.threshold threshold ∧ Counts (fun _ => False)
        (fun text => (condenserLoopOverride { condenser with threshold := text }).build a)
        condenser.threshold threshold) ∧
    (∀ threshold, curve.thresholdCelsius = .ok threshold →
      ReadsThreshold curve.threshold threshold ∧ Counts Curve.IsCoefficient
        (fun text => (curveResultOverride { curve with threshold := text }).build a)
        curve.threshold threshold) ∧
    ∀ sizes, sizing.sizes = .ok sizes →
      ReadsSizes sizing.packageSizes sizes ∧
        OnFault (Fault.Blames fun n => infinity ∈ sizes ∧ n = ⟨"rule boundary", infinity⟩)
          ((discretePackageSizing sizing).build a) ∧
        (infinity ∈ sizes → sizing.airLoops ≠ [] → (discretePackageSizing sizing).build a =
          .error (.program (.nonFinite ⟨"rule boundary", infinity⟩))) := by
  refine ⟨fun threshold read => ?_, fun threshold read => ?_, fun sizes read => ?_⟩
  · exact ⟨Condenser.readsThreshold read, Condenser.counts read a⟩
  · exact ⟨Curve.readsThreshold read, Curve.counts read a⟩
  · exact ⟨Sizing.readsSizes read, Sizing.blames_sizes read a,
      fun mem some => Sizing.build_infinity read mem some a⟩

/-- A threshold that is too large to be rounded. -/
def hotLoop : Condenser :=
  { Condenser.default with loops := [⟨"Loop", "Pump", .constant⟩], threshold := "1e305" }

/-- The same threshold for a curve. -/
def hotCoil : Curve :=
  { Curve.default with units := [⟨"Unit", "Curve", ⟨1.0, 0.0, 0.0, 0.0, 0.0, 0.0⟩⟩],
                       threshold := "1e305" }

/-- A size whose text is too large for a number. -/
def hugePackage : Sizing :=
  { Sizing.default with airLoops := ["Loop"], packageSizes := ["0.5", "1e400"] }

/-- The three are accepted as infinite, and none of them is built. -/
theorem build_infinite :
    (hotLoop.thresholdCelsius = .ok infinity ∧ (condenserLoopOverride hotLoop).build .first =
      .error (.program (.nonFinite ⟨"condition boundary", infinity⟩))) ∧
    (hotCoil.thresholdCelsius = .ok infinity ∧
      ∀ a b, (curveResultOverride hotCoil).build a ≠ .ok b) ∧
    (hugePackage.sizes = .ok [0.5, infinity] ∧ (discretePackageSizing hugePackage).build .first =
      .error (.program (.nonFinite ⟨"rule boundary", infinity⟩))) := by
  have accepted := build_of_accepted hotLoop hotCoil hugePackage
  have loop : hotLoop.thresholdCelsius = .ok infinity := eq_ok_of_toOption (by decide +kernel)
  have coil : hotCoil.thresholdCelsius = .ok infinity := eq_ok_of_toOption (by decide +kernel)
  have package : hugePackage.sizes = .ok [0.5, infinity] := eq_ok_of_toOption (by decide +kernel)
  refine ⟨⟨loop, ?_⟩, ⟨coil, fun a b built => ?_⟩, package, ?_⟩
  · -- with the threshold that is taken when none is given, the loop is built
    have mild : ((condenserLoopOverride
        { hotLoop with threshold := Condenser.default.threshold }).build .first).isOk = true := by
      decide +kernel
    obtain ⟨_, mild⟩ := exists_of_isOk mild
    obtain ⟨-, counts⟩ := (accepted .first).1 infinity loop
    exact counts.stops rfl _ _ mild
  · -- its own threshold would be one that lets it build
    obtain ⟨-, counts⟩ := (accepted a).2.1 infinity coil
    have stopped := counts.stops rfl hotCoil.threshold b built
    rw [built] at stopped
    cases stopped
  · obtain ⟨-, -, stopped⟩ := (accepted .first).2.2 [0.5, infinity] package
    exact stopped (by simp) (by simp [hugePackage])

end BuildingControl.Measure
