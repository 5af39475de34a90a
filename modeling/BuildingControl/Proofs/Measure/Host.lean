/-
  BuildingControl.Proofs.Measure.Host

  Names of the building in the programs of a measure.  A measure carries texts of
  the building: windows, constructions, loops, pumps, zones, coils, units.  Its
  programs and subroutines are made of what `sanitize` leaves of these texts and of
  nothing else, and three measures number their units and use no such text at all.

  `mapHosts` rewrites every text of the building in a measure and leaves the rest
  alone.  Two measures agree up to their texts of the building when they are one
  measure after the same rewriting, so no position has to be named.  Since the
  programs of a measure survive the rewriting (`bodies_mapHosts`), two measures that
  agree in this way have the same programs (`samePrograms_of_mapHosts`).
-/
import BuildingControl.Proofs.Erl.Sanitize
import BuildingControl.Proofs.Measure.Reference

namespace BuildingControl.Measure

open Erl Model

/-! ## Programs of a script -/

/-- Whether an object is a program or a subroutine. -/
def isBody : Declaration → Bool
  | .program _ => true
  | .subroutine _ => true
  | _ => false

namespace Script

/-- The programs and subroutines of a script, in order. -/
def bodies (script : Script) : List Declaration :=
  (script.filterMap Except.toOption).filter isBody

@[simp] theorem bodies_nil : bodies [] = [] := rfl

@[simp] theorem bodies_append (s t : Script) : (s ++ t).bodies = s.bodies ++ t.bodies := by
  simp [bodies]

/-- Parts without programs are no programs together. -/
@[simp] theorem bodies_flatMap_of_none {α : Type} {xs : List α} {part : α → Script}
    (none : ∀ x, (part x).bodies = []) : bodies (xs.flatMap part) = [] := by
  induction xs with
  | nil => rfl
  | cons x xs ih => rw [List.flatMap_cons, bodies_append, none, ih, List.append_nil]

@[simp] theorem bodies_require {α : Type} (check : Except Fault α) : (require check).bodies = [] := by
  cases check <;> rfl

@[simp] theorem bodies_sensor (name key output : String) : (sensor name key output).bodies = [] := by
  unfold sensor
  cases Name.ofText? name <;> rfl

@[simp] theorem bodies_actuator (name component : String) (kind : ComponentKind) (control : String) :
    (actuator name component kind control).bodies = [] := by
  unfold actuator
  cases Name.ofText? name with
  | error fault => rfl
  | ok n =>
    show (one ((Actuator.ofComponent n ⟨component, kind⟩ control).map .actuator)).bodies = []
    cases Actuator.ofComponent n ⟨component, kind⟩ control <;> rfl

@[simp] theorem bodies_global (name : String) : (global name).bodies = [] := by
  unfold global
  cases Name.ofText? name <;> rfl

@[simp] theorem bodies_trend (name source : String) (timesteps : Nat) :
    (trend name source timesteps).bodies = [] := by
  unfold trend
  cases Name.ofText? name with
  | error fault => rfl
  | ok n => cases Name.ofText? source <;> rfl

@[simp] theorem bodies_internal (name key dataType : String) :
    (internal name key dataType).bodies = [] := by
  unfold internal
  cases Name.ofText? name <;> rfl

@[simp] theorem bodies_manager (name : String) (point : CallingPoint) (program : String) :
    (manager name point program).bodies = [] := by
  unfold manager
  cases Name.ofText? program <;> rfl

@[simp] theorem bodies_output (name source : String) (frequency : UpdateFrequency)
    (units : Option String) : (output name source frequency units).bodies = [] := by
  unfold output
  cases Name.ofText? source <;> rfl

@[simp] theorem bodies_request (key variableName : String) (frequency : ReportingFrequency) :
    (request key variableName frequency).bodies = [] := rfl

/-- Units that are rewritten have the programs they had when each of them has. -/
theorem bodies_forEach_map {α : Type} {g : α → α} {part rewritten : α → Nat → Script}
    (h : ∀ x n, (rewritten (g x) n).bodies = (part x n).bodies) (a : Numbering) (units : List α) :
    (forEach a (units.map g) rewritten).bodies = (forEach a units part).bodies := by
  induction units generalizing a with
  | nil => rfl
  | cons x rest ih =>
    rw [List.map_cons, forEach, forEach]
    cases a.advance with
    | error fault => rfl
    | ok next => simp only [bodies_append, h, ih]

/-- The programs and subroutines of a model are those of the script that it was made by. -/
theorem objects_of_run {script : Script} {m : Model} (h : script.run .empty = .ok m)
    {k : ObjectKind} (kind : k = .program ∨ k = .subroutine) :
    m.objects k = script.bodies.filter fun d => d.kind = k := by
  obtain ⟨ds, all, declared⟩ := run_eq_ok_iff.1 h
  obtain ⟨-, -, -, rfl⟩ := declareAll_eq_ok_iff.1 declared
  have steps : script.filterMap Except.toOption = ds := by
    rw [show script = ds.map .ok from all, List.filterMap_map]
    exact List.filterMap_some
  have other : k ≠ .request := by rcases kind with rfl | rfl <;> nofun
  rw [foldl_push_objects _ _ other, objects_empty, List.nil_append, bodies, steps,
    List.filter_filter]
  refine List.filter_congr fun d _ => ?_
  -- an object of either kind is a body
  rcases kind with rfl | rfl <;> cases d <;> simp [isBody, Declaration.kind]

/-- The only program of a script is the only program of the model. -/
theorem exists_programs_eq {script front part back : Script} {m : Model}
    (h : script.run .empty = .ok m) {name : String} {body : Except Erl.Fault Code}
    (program : IsProgram part name body) (shape : script = front ++ (part ++ back))
    (first : front.bodies = []) (last : back.bodies = []) :
    ∃ p, m.programs = [p] ∧ p.name.text = name ∧ body = .ok p.body := by
  obtain ⟨ds, all, -⟩ := run_eq_ok_iff.1 h
  rw [shape] at all
  obtain ⟨_, _, -, behind, -⟩ := allOk_append_iff.1 all
  obtain ⟨_, _, middle, -, -⟩ := allOk_append_iff.1 behind
  obtain ⟨n, code, hn, hc, rfl⟩ := program _ middle
  have written : part = [.ok (.program ⟨n, code⟩)] := middle
  have listed := objects_of_run h (.inl rfl)
  rw [shape, bodies_append, bodies_append, first, last, written] at listed
  exact ⟨⟨n, code⟩, List.map_injective_iff.2 (fun _ _ => Declaration.program.inj) listed, hn, hc⟩

end Script

/-- Two models have the same programs and subroutines. -/
structure SamePrograms (m n : Model) : Prop where
  programs : m.programs = n.programs
  subroutines : m.subroutines = n.subroutines

/-- Scripts with the same programs lead to models with the same programs. -/
theorem samePrograms_of_bodies {s t : Script} {m n : Model} (hs : s.run .empty = .ok m)
    (ht : t.run .empty = .ok n) (same : s.bodies = t.bodies) : SamePrograms m n := by
  have objects {k : ObjectKind} (kind : k = .program ∨ k = .subroutine) :
      m.objects k = n.objects k := by
    rw [Script.objects_of_run hs kind, Script.objects_of_run ht kind, same]
  constructor
  · exact List.map_injective_iff.2 (fun p q h => by cases h; rfl) (objects (.inl rfl))
  · exact List.map_injective_iff.2 (fun p q h => by cases h; rfl) (objects (.inr rfl))

/-! ## Texts of the building -/

/-- The measure with every text of the building rewritten. -/
def Thermochromic.mapHosts (f : String → String) (w : Thermochromic) : Thermochromic :=
  { w with
    window := f w.window
    states := w.states.map fun s => { s with construction := f s.construction }
    defaultConstruction := f w.defaultConstruction }

/-- The loop with every text of the building rewritten. -/
def CondenserLoop.mapHosts (f : String → String) (l : CondenserLoop) : CondenserLoop :=
  { l with name := f l.name, pump := f l.pump }

/-- The unit with every text of the building rewritten. -/
def CurveUnit.mapHosts (f : String → String) (u : CurveUnit) : CurveUnit :=
  { u with heatPump := f u.heatPump, curve := f u.curve }

/-- The unit with every text of the building rewritten. -/
def VrfUnit.mapHosts (f : String → String) (u : VrfUnit) : VrfUnit :=
  ⟨f u.name, u.terminals.map f⟩

/-- The measure with every text of the building rewritten. -/
def mapHosts (f : String → String) : Measure → Measure
  | thermochromicWindow w => thermochromicWindow (w.mapHosts f)
  | condenserLoopOverride c =>
    condenserLoopOverride { c with loops := c.loops.map (CondenserLoop.mapHosts f) }
  | comfortHalt c => comfortHalt { c with zones := c.zones.map f }
  | discretePackageSizing s => discretePackageSizing { s with airLoops := s.airLoops.map f }
  | zoneAverageTemperature z => zoneAverageTemperature { z with zones := z.zones.map f }
  | curveResultOverride c => curveResultOverride { c with units := c.units.map (CurveUnit.mapHosts f) }
  | vrfModeOverride v => vrfModeOverride { v with units := v.units.map (VrfUnit.mapHosts f) }

/-- The measures whose programs number the units and name none of them. -/
def numbersOnly : Kind → Bool
  | .comfortHalt => true
  | .zoneAverageTemperature => true
  | .curveResultOverride => true
  | _ => false

/-! ## Rewritten measures -/

/-- Numbered units that are rewritten have the lines they had when each of them has. -/
theorem flatMap_zipIdx_map {α β : Type} {g : α → α} {lines rewritten : α → Nat → List β}
    (h : ∀ x n, rewritten (g x) n = lines x n) (units : List α) (first : Nat) :
    ((units.map g).zipIdx first).flatMap (fun u => rewritten u.1 u.2) =
      (units.zipIdx first).flatMap fun u => lines u.1 u.2 := by
  rw [List.zipIdx_map, List.flatMap_map]
  exact congrArg (List.flatMap · _) (funext fun u => h u.1 u.2)

-- what a text becomes is not looked at here
attribute [local irreducible] sanitize

/-- Handles are no programs. -/
@[simp] theorem Thermochromic.bodies_handles (seen : List (String × Name))
    (constructions : List String) : (handles seen constructions).bodies = [] := by
  induction constructions generalizing seen with
  | nil => rfl
  | cons c rest ih =>
    rw [handles_cons]
    split
    · rfl
    · rw [Script.bodies_append, ih, List.append_nil]
      split
      · rfl
      · split <;> rfl

section Sanitized

variable {f : String → String} (same : ∀ s, sanitize (f s) = sanitize s)

include same

theorem Thermochromic.bodies_mapHosts (w : Thermochromic) :
    (w.mapHosts f).script.bodies = w.script.bodies := by
  have names : (w.mapHosts f).programName = w.programName ∧ (w.mapHosts f).table = w.table := by
    simp [table_eq, sensorName, actuatorName, programName, mapHosts, same, Function.comp_def]
  -- the sensor, the actuator and the handles carry the texts themselves, and have no lines
  simp [script, names.1, names.2]

theorem Condenser.bodies_mapHosts (c : Condenser) (a : Numbering) :
    (script { c with loops := c.loops.map (CondenserLoop.mapHosts f) } a).bodies =
      (c.script a).bodies := by
  have objects : (Script.forEach a (c.loops.map (CondenserLoop.mapHosts f)) loopScript).bodies =
      (Script.forEach a c.loops loopScript).bodies :=
    Script.bodies_forEach_map (fun l n => by simp [loopScript]) a c.loops
  have lines (threshold : Float) :
      body { c with loops := c.loops.map (CondenserLoop.mapHosts f) } threshold a =
        c.body threshold a :=
    flatMap_zipIdx_map
      (fun l n => by simp [loopBody, loopActuator, pumpActuator, CondenserLoop.mapHosts, same])
      c.loops a.next
  have limit : thresholdCelsius { c with loops := c.loops.map (CondenserLoop.mapHosts f) } =
      c.thresholdCelsius := by
    rw [thresholdCelsius, thresholdCelsius]
  simp only [script, List.isEmpty_map, limit]
  split
  · rfl
  · cases c.thresholdCelsius with
    | error fault => rfl
    | ok threshold => simp only [Script.bodies_append, objects, lines]

theorem Sizing.bodies_mapHosts (s : Sizing) :
    (script { s with airLoops := s.airLoops.map f }).bodies = s.script.bodies := by
  have lines : (s.airLoops.map f).flatMap loopBody = s.airLoops.flatMap loopBody := by
    rw [List.flatMap_map]
    refine congrArg (List.flatMap · s.airLoops) (funext fun airLoop => ?_)
    simp only [loopBody, calculatedName, actuatorName, same]
  have objects (airLoop : String) : (loopScript airLoop).bodies = [] := by simp [loopScript]
  have flows : sizes { s with airLoops := s.airLoops.map f } = s.sizes := rfl
  simp only [script, List.isEmpty_map, flows]
  split
  · rfl
  · cases s.sizes with
    | error fault => rfl
    | ok sizes =>
      simp only [Script.bodies_append, Script.bodies_flatMap_of_none objects, lines]

theorem Vrf.bodies_mapHosts (v : Vrf) (a : Numbering) :
    (script { v with units := v.units.map (VrfUnit.mapHosts f) } a).bodies =
      (v.script a).bodies := by
  have objects : (Script.forEach a (v.units.map (VrfUnit.mapHosts f)) unitScript).bodies =
      (Script.forEach a v.units unitScript).bodies :=
    Script.bodies_forEach_map (fun u n => by simp [unitScript]) a v.units
  have modes : initBody { v with units := v.units.map (VrfUnit.mapHosts f) } a = v.initBody a := by
    rw [initBody, initBody, List.zipIdx_map, List.flatMap_map]
    rfl
  have ratios : controlBody { v with units := v.units.map (VrfUnit.mapHosts f) } a =
      v.controlBody a := by
    -- an outdoor unit goes by its number, a terminal by its text
    refine flatMap_zipIdx_map (fun u n => ?_) v.units a.next
    simp only [controlLines, VrfUnit.mapHosts, List.flatMap_map, ratioActuator, same]
  have checked : checkRatio { v with units := v.units.map (VrfUnit.mapHosts f) } = v.checkRatio :=
    rfl
  have bare : (v.units.map (VrfUnit.mapHosts f)).all (fun u => u.terminals.isEmpty) =
      v.units.all fun u => u.terminals.isEmpty := by
    simp [List.all_map, Function.comp_def, VrfUnit.mapHosts]
  simp only [script, List.isEmpty_map, bare, checked]
  split
  · rfl
  · split
    · rfl
    · simp only [Script.bodies_append, objects, modes, ratios]

end Sanitized

/-! ### Measures that only number their units -/

variable (f : String → String)

theorem Comfort.bodies_mapHosts (c : Comfort) (a : Numbering) :
    (script { c with zones := c.zones.map f } a).bodies = (c.script a).bodies := by
  have bounds : checkBounds { c with zones := c.zones.map f } = c.checkBounds := rfl
  have window : trendTimesteps { c with zones := c.zones.map f } = c.trendTimesteps := rfl
  simp only [script, List.isEmpty_map, bounds, window]
  split
  · rfl
  · cases c.checkBounds with
    | error fault => rfl
    | ok u =>
      cases c.trendTimesteps with
      | error fault => rfl
      | ok timesteps =>
        exact Script.bodies_forEach_map (fun zone n => by simp [zoneScript, haltBody]) a c.zones

theorem ZoneAverage.bodies_mapHosts (z : ZoneAverage) (a : Numbering) :
    (script { z with zones := z.zones.map f } a).bodies = (z.script a).bodies := by
  have objects : (Script.forEach a (z.zones.map f) zoneScript).bodies =
      (Script.forEach a z.zones zoneScript).bodies :=
    Script.bodies_forEach_map (fun zone n => by simp [zoneScript]) a z.zones
  have lines (numbers : List Nat) :
      programDeclaration { z with zones := z.zones.map f } numbers = z.programDeclaration numbers :=
    rfl
  simp only [script, List.isEmpty_map, List.length_map, lines]
  split
  · rfl
  · simp only [Script.bodies_append, objects, Script.bodies_global, Script.bodies_manager,
      Script.bodies_output, Script.bodies_request]

theorem Curve.bodies_mapHosts (c : Curve) (a : Numbering) :
    (script { c with units := c.units.map (CurveUnit.mapHosts f) } a).bodies =
      (c.script a).bodies := by
  have objects : (Script.forEach a (c.units.map (CurveUnit.mapHosts f))
        (unitScript { c with units := c.units.map (CurveUnit.mapHosts f) })).bodies =
      (Script.forEach a c.units c.unitScript).bodies :=
    Script.bodies_forEach_map (fun u n => by simp [unitScript, report]) a c.units
  have lines (threshold : Float) :
      body { c with units := c.units.map (CurveUnit.mapHosts f) } threshold a =
        c.body threshold a :=
    -- no line of a unit mentions its heat pump or its curve
    flatMap_zipIdx_map (fun u n => rfl) c.units a.next
  have limit : thresholdCelsius { c with units := c.units.map (CurveUnit.mapHosts f) } =
      c.thresholdCelsius := by
    rw [thresholdCelsius, thresholdCelsius]
  simp only [script, List.isEmpty_map, limit]
  split
  · rfl
  · cases c.thresholdCelsius with
    | error fault => rfl
    | ok threshold => simp only [Script.bodies_append, objects, lines]

/-! ## Any measure -/

/-- A rewriting that `sanitize` does not see leaves the programs of a measure as they are. -/
theorem bodies_mapHosts {f : String → String} (same : ∀ s, sanitize (f s) = sanitize s)
    (x : Measure) (a : Numbering) : ((x.mapHosts f).script a).bodies = (x.script a).bodies := by
  cases x with
  | thermochromicWindow w => exact w.bodies_mapHosts same
  | condenserLoopOverride c => exact c.bodies_mapHosts same a
  | comfortHalt c => exact c.bodies_mapHosts f a
  | discretePackageSizing s => exact s.bodies_mapHosts same
  | zoneAverageTemperature z => exact z.bodies_mapHosts f a
  | curveResultOverride c => exact c.bodies_mapHosts f a
  | vrfModeOverride v => exact v.bodies_mapHosts same a

/-- Any rewriting leaves the programs of a measure as they are that only numbers its units. -/
theorem bodies_mapHosts_of_numbersOnly (f : String → String) {x : Measure}
    (numbers : numbersOnly x.kind = true) (a : Numbering) :
    ((x.mapHosts f).script a).bodies = (x.script a).bodies := by
  cases x with
  | comfortHalt c => exact c.bodies_mapHosts f a
  | zoneAverageTemperature z => exact z.bodies_mapHosts f a
  | curveResultOverride c => exact c.bodies_mapHosts f a
  | _ => cases numbers

@[simp] theorem kind_mapHosts (f : String → String) (x : Measure) :
    (x.mapHosts f).kind = x.kind := by
  cases x <;> rfl

/-- Two measures that differ in texts of the building only, and in none that `sanitize` tells
    apart, have the same programs and subroutines once they build.  If the measure only numbers
    its units, any texts of the building will do. -/
theorem samePrograms_of_mapHosts {x y : Measure} {a b c : Numbering} {m n : Model}
    (hx : x.build a = .ok (m, b)) (hy : y.build a = .ok (n, c)) :
    (x.mapHosts sanitize = y.mapHosts sanitize → SamePrograms m n) ∧
      (numbersOnly x.kind = true → x.mapHosts (fun _ => "") = y.mapHosts (fun _ => "") →
        SamePrograms m n) := by
  have builds := samePrograms_of_bodies (build_eq_ok_iff.1 hx).1 (build_eq_ok_iff.1 hy).1
  constructor
  · intro agree
    apply builds
    rw [← bodies_mapHosts sanitize_sanitize x, agree, bodies_mapHosts sanitize_sanitize y]
  · intro numbers agree
    have numbersToo : numbersOnly y.kind = true := by
      rw [← kind_mapHosts (fun _ => "") y, ← agree, kind_mapHosts]
      exact numbers
    apply builds
    rw [← bodies_mapHosts_of_numbersOnly (fun _ => "") numbers, agree,
      bodies_mapHosts_of_numbersOnly (fun _ => "") numbersToo]

/-- A window that is tinted when it is warm. -/
def tinted (window clear : String) : Measure :=
  .thermochromicWindow ⟨window, [⟨26.0, clear⟩], "Tint", "M"⟩

/-- The average over one zone. -/
def averaged (zone : String) : Measure :=
  .zoneAverageTemperature ⟨[zone], "P", "M", "A", "O"⟩

/-- Two spellings of a window and its glass, and two zones. -/
theorem samePrograms_tinted_averaged :
    (∃ m n b c, (tinted "Wall 1" "clear glass").build .first = .ok (m, b) ∧
      (tinted " Wall-1" "clear-glass ").build .first = .ok (n, c) ∧ SamePrograms m n) ∧
    ∃ m n b c, (averaged "Core").build .first = .ok (m, b) ∧
      (averaged "Attic").build .first = .ok (n, c) ∧ SamePrograms m n := by
  have built {x : Measure} (h : (x.build .first).toOption.isSome = true) :
      ∃ m b, x.build .first = .ok (m, b) := by
    obtain ⟨⟨m, b⟩, some⟩ := Option.isSome_iff_exists.1 h
    exact ⟨m, b, eq_ok_of_toOption some⟩
  constructor
  · obtain ⟨m, b, hm⟩ := built (x := tinted "Wall 1" "clear glass") (by decide +kernel)
    obtain ⟨n, c, hn⟩ := built (x := tinted " Wall-1" "clear-glass ") (by decide +kernel)
    have wall : sanitize "Wall 1" = sanitize " Wall-1" := by decide +kernel
    have glass : sanitize "clear glass" = sanitize "clear-glass " := by decide +kernel
    have agree : (tinted "Wall 1" "clear glass").mapHosts sanitize =
        (tinted " Wall-1" "clear-glass ").mapHosts sanitize := by
      simp only [tinted, mapHosts, Thermochromic.mapHosts, List.map_cons, List.map_nil, wall, glass]
    exact ⟨m, n, b, c, hm, hn, (samePrograms_of_mapHosts hm hn).1 agree⟩
  · obtain ⟨m, b, hm⟩ := built (x := averaged "Core") (by decide +kernel)
    obtain ⟨n, c, hn⟩ := built (x := averaged "Attic") (by decide +kernel)
    exact ⟨m, n, b, c, hm, hn, (samePrograms_of_mapHosts hm hn).2 rfl rfl⟩

end BuildingControl.Measure
