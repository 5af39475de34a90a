/-
  BuildingControl.Proofs.Measure.Schedule

  When the programs of a measure run.  A script that schedules what it makes names
  one program in each calling manager, and every program once, so that in a measure
  that is built the managers run exactly the programs, in order (`runs_of_build`).
  Subroutines are run by none.
-/
import BuildingControl.Proofs.Measure.Closed
import BuildingControl.Proofs.Measure.Curve

namespace BuildingControl

open Erl Model

namespace Model

/-- The name of a program; no other object is scheduled. -/
def Declaration.programName? : Declaration → Option String
  | .program p => some p.name.text
  | _ => none

/-- The names of the programs that a calling manager runs; no other object runs any. -/
def Declaration.runs : Declaration → List String
  | .manager c => c.programs.map Name.text
  | _ => []

/-- The programs that objects bring into a model, and those that their managers run. -/
theorem programs_of_declareAll {m : Model} {ds : List Declaration}
    (h : empty.declareAll ds = (m, .ok ())) :
    ds.filterMap Declaration.programName? = m.programs.map (fun p => p.name.text) ∧
      ds.flatMap Declaration.runs =
        (m.managers.flatMap CallingManager.programs).map Name.text := by
  obtain ⟨-, -, -, rfl⟩ := declareAll_eq_ok_iff.1 h
  have program := foldl_push_objects empty ds (k := .program) nofun
  have manager := foldl_push_objects empty ds (k := .manager) nofun
  rw [objects_empty, List.nil_append] at program manager
  constructor
  · have named : ds.filterMap Declaration.programName? =
        (ds.filter fun d => d.kind = .program).filterMap Declaration.programName? := by
      rw [List.filterMap_filter]
      refine List.filterMap_congr fun d _ => ?_
      cases d <;> rfl
    rw [named, ← program, objects, List.filterMap_map]
    exact congrFun List.filterMap_eq_map _
  · have run : ds.flatMap Declaration.runs =
        (ds.filter fun d => d.kind = .manager).flatMap Declaration.runs := by
      clear program manager h
      induction ds with
      | nil => rfl
      | cons d ds ih =>
        rw [List.flatMap_cons, ih]
        cases d <;> rfl
    rw [run, ← manager, objects, List.flatMap_map, List.map_flatMap]
    rfl

end Model

namespace Measure

namespace Script

/-! ## Scripts -/

/-- A script without faults makes programs of these names, in order, and calling managers that run
    the programs of those names, in order. -/
def Starts (s : Script) (names runs : List String) : Prop :=
  ∀ ds, AllOk s ds → ds.filterMap Declaration.programName? = names ∧
    ds.flatMap Declaration.runs = runs

theorem Starts.append {s t : Script} {names more runs later : List String}
    (hs : s.Starts names runs) (ht : t.Starts more later) :
    Starts (s ++ t) (names ++ more) (runs ++ later) := by
  intro ds all
  obtain ⟨first, second, hfirst, hsecond, rfl⟩ := allOk_append_iff.1 all
  obtain ⟨named, run⟩ := hs first hfirst
  obtain ⟨named', run'⟩ := ht second hsecond
  exact ⟨by rw [List.filterMap_append, named, named'], by rw [List.flatMap_append, run, run']⟩

theorem starts_nil : Starts [] [] [] := by
  intro ds all
  rw [allOk_nil_iff.1 all]
  exact ⟨rfl, rfl⟩

/-- A fault leaves nothing to say. -/
theorem starts_error (fault : Fault) (names runs : List String) :
    Starts [.error fault] names runs := by
  intro ds all
  cases ds <;> cases all

theorem starts_flatMap {α : Type} {xs : List α} {part : α → Script} {names runs : α → List String}
    (each : ∀ x, (part x).Starts (names x) (runs x)) :
    Starts (xs.flatMap part) (xs.flatMap names) (xs.flatMap runs) := by
  induction xs with
  | nil => exact starts_nil
  | cons x xs ih => exact (each x).append ih

/-- Parts that make neither programs nor managers make none together. -/
theorem starts_flatMap_none {α : Type} {xs : List α} {part : α → Script}
    (each : ∀ x, (part x).Starts [] []) : Starts (xs.flatMap part) [] [] := by
  have none : xs.flatMap (fun _ => ([] : List String)) = [] :=
    List.flatMap_eq_nil_iff.2 fun _ _ => rfl
  have all : Starts (xs.flatMap part) (xs.flatMap fun _ => []) (xs.flatMap fun _ => []) :=
    starts_flatMap each
  rwa [none] at all

theorem starts_require {α : Type} (check : Except Fault α) : (require check).Starts [] [] := by
  cases check with
  | error fault => exact starts_error fault [] []
  | ok x => exact starts_nil

/-! ### Objects one by one -/

theorem starts_sensor (name key output : String) : (sensor name key output).Starts [] [] := by
  intro ds all
  obtain ⟨n, -, rfl⟩ := allOk_sensor_iff.1 all
  exact ⟨rfl, rfl⟩

theorem starts_actuator (name component : String) (kind : ComponentKind) (control : String) :
    (actuator name component kind control).Starts [] [] := by
  intro ds all
  obtain ⟨n, a, -, -, rfl⟩ := allOk_actuator_iff.1 all
  exact ⟨rfl, rfl⟩

theorem starts_global (name : String) : (global name).Starts [] [] := by
  intro ds all
  obtain ⟨n, -, rfl⟩ := allOk_global_iff.1 all
  exact ⟨rfl, rfl⟩

theorem starts_trend (name source : String) (timesteps : Nat) :
    (trend name source timesteps).Starts [] [] := by
  intro ds all
  obtain ⟨n, k, -, -, rfl⟩ := allOk_trend_iff.1 all
  exact ⟨rfl, rfl⟩

theorem starts_internal (name key dataType : String) :
    (internal name key dataType).Starts [] [] := by
  intro ds all
  obtain ⟨n, -, rfl⟩ := allOk_internal_iff.1 all
  exact ⟨rfl, rfl⟩

theorem starts_output (name source : String) (frequency : UpdateFrequency)
    (units : Option String) : (output name source frequency units).Starts [] [] := by
  intro ds all
  obtain ⟨n, -, rfl⟩ := allOk_output_iff.1 all
  exact ⟨rfl, rfl⟩

theorem starts_request (key variableName : String) (frequency : ReportingFrequency) :
    (request key variableName frequency).Starts [] [] := by
  intro ds all
  obtain ⟨x, hx, rfl⟩ := allOk_one_iff.1 all
  cases hx
  exact ⟨rfl, rfl⟩

theorem starts_subroutine (name : String) (body : Except Erl.Fault Code) :
    (subroutine name body).Starts [] [] := by
  intro ds all
  obtain ⟨n, c, -, -, rfl⟩ := allOk_subroutine_iff.1 all
  exact ⟨rfl, rfl⟩

theorem starts_of_isProgram {part : Script} {name : String} {body : Except Erl.Fault Code}
    (program : IsProgram part name body) : part.Starts [name] [] := by
  intro ds all
  obtain ⟨n, c, named, -, rfl⟩ := program ds all
  rw [← named]
  exact ⟨rfl, rfl⟩

theorem starts_manager (name : String) (point : CallingPoint) (program : String) :
    (manager name point program).Starts [] [program] := by
  intro ds all
  obtain ⟨n, named, rfl⟩ := allOk_manager_iff.1 all
  rw [← named]
  exact ⟨rfl, rfl⟩

end Script

/-! ## Measures -/

theorem Thermochromic.starts_handles (seen : List (String × Name)) (constructions : List String) :
    (handles seen constructions).Starts [] [] := by
  induction constructions generalizing seen with
  | nil => exact Script.starts_nil
  | cons c rest ih =>
    rw [handles_cons]
    split
    · exact Script.starts_error _ [] []
    · refine (?_ : Script.Starts _ [] []).append (ih _)
      split
      · -- a construction that was not seen before is an object, and no program
        intro ds all
        obtain ⟨x, hx, rfl⟩ := allOk_singleton_iff.1 all
        cases hx
        exact ⟨rfl, rfl⟩
      · split
        · exact Script.starts_nil
        · exact Script.starts_error _ [] []

section Starts

variable {a : Numbering} {m : Model}

theorem Thermochromic.starts (w : Thermochromic) :
    w.script.Starts [w.programName] [w.programName] :=
  (((((Script.starts_require _).append (Script.starts_sensor _ _ _)).append
    (Script.starts_actuator _ _ _ _)).append (starts_handles [] _)).append
    (Script.starts_of_isProgram isProgram_table)).append (Script.starts_manager _ _ _)

theorem Condenser.starts {c : Condenser} (h : (c.script a).run .empty = .ok m) :
    (c.script a).Starts [c.program] [c.program] := by
  obtain ⟨threshold, -, shape⟩ := outline h
  have loops (l : CondenserLoop × Nat) : (loopScript l.1 l.2).Starts [] [] :=
    ((((Script.starts_global _).append (Script.starts_actuator _ _ _ _)).append
      (Script.starts_actuator _ _ _ _)).append (Script.starts_output _ _ _ _)).append
      (Script.starts_request _ _ _)
  rw [shape]
  exact (Script.starts_sensor _ _ _).append ((Script.starts_flatMap_none loops).append
    ((Script.starts_of_isProgram Script.isProgram_program).append (Script.starts_manager _ _ _)))

/-- Every zone has a program and a manager of its own. -/
theorem Comfort.starts {c : Comfort} (h : (c.script a).run .empty = .ok m) :
    (c.script a).Starts ((c.zones.zipIdx a.next).flatMap fun u => [updateName u.2])
      ((c.zones.zipIdx a.next).flatMap fun u => [updateName u.2]) := by
  obtain ⟨-, -, timesteps, shape⟩ := outline h
  rw [shape]
  refine Script.starts_flatMap fun u => ?_
  exact ((((((((Script.starts_sensor _ _ _).append (Script.starts_request _ _ _)).append
    (Script.starts_trend _ _ _)).append (Script.starts_global _)).append
    (Script.starts_subroutine _ _)).append
    (Script.starts_of_isProgram Script.isProgram_program)).append
    (Script.starts_manager _ _ _)).append (Script.starts_output _ _ _ _))

theorem Sizing.starts {s : Sizing} (h : s.script.run .empty = .ok m) :
    s.script.Starts [s.program] [s.program] := by
  obtain ⟨sizes, shape⟩ := outline h
  have loops (airLoop : String) : (loopScript airLoop).Starts [] [] :=
    (Script.starts_internal _ _ _).append (Script.starts_actuator _ _ _ _)
  rw [shape]
  exact (Script.starts_global _).append ((Script.starts_global _).append
    ((Script.starts_subroutine _ _).append ((Script.starts_flatMap_none loops).append
    ((Script.starts_of_isProgram Script.isProgram_program).append
    (Script.starts_manager _ _ _)))))

theorem ZoneAverage.starts {z : ZoneAverage} (h : (z.script a).run .empty = .ok m) :
    (z.script a).Starts [z.program] [z.program] := by
  obtain ⟨-, shape⟩ := outline h
  have zones (u : String × Nat) : (zoneScript u.1 u.2).Starts [] [] :=
    (Script.starts_sensor _ _ _).append (Script.starts_internal _ _ _)
  rw [shape]
  exact (Script.starts_flatMap_none zones).append ((Script.starts_global _).append
    ((Script.starts_of_isProgram isProgram_programDeclaration).append
    ((Script.starts_manager _ _ _).append ((Script.starts_output _ _ _ _).append
    (Script.starts_request _ _ _)))))

theorem Curve.starts {c : Curve} (h : (c.script a).run .empty = .ok m) :
    (c.script a).Starts [c.program] [c.program] := by
  obtain ⟨threshold, -, shape⟩ := outline h
  have reports (output source : String) : (report output source).Starts [] [] :=
    (Script.starts_output _ _ _ _).append (Script.starts_request _ _ _)
  have units (u : CurveUnit × Nat) : (c.unitScript u.1 u.2).Starts [] [] :=
    (((((((((((Script.starts_actuator _ _ _ _).append (Script.starts_global _)).append
      (Script.starts_sensor _ _ _)).append (Script.starts_sensor _ _ _)).append
      (Script.starts_sensor _ _ _)).append (Script.starts_sensor _ _ _)).append
      (Script.starts_sensor _ _ _)).append (reports _ _)).append (reports _ _)).append
      (reports _ _)).append (Script.starts_require _)).append (Script.starts_require _)
  rw [shape]
  exact (Script.starts_flatMap_none units).append
    ((Script.starts_of_isProgram Script.isProgram_program).append
    ((Script.starts_manager _ _ _).append (Script.starts_request _ _ _)))

/-- The modes are set once, the units held in heating ever after. -/
theorem Vrf.starts {v : Vrf} (h : (v.script a).run .empty = .ok m) :
    (v.script a).Starts [v.initProgram, v.program] [v.initProgram, v.program] := by
  have units (u : VrfUnit × Nat) : (unitScript u.1 u.2).Starts [] [] :=
    (((Script.starts_flatMap_none fun _ => Script.starts_global _).append
      (Script.starts_actuator _ _ _ _)).append
      (Script.starts_flatMap_none fun _ => Script.starts_actuator _ _ _ _)).append
      (Script.starts_output _ _ _ _)
  rw [(outline h).2]
  exact (Script.starts_require _).append ((Script.starts_flatMap_none units).append
    ((Script.starts_of_isProgram Script.isProgram_program).append
    ((Script.starts_of_isProgram Script.isProgram_program).append
    ((Script.starts_manager _ _ _).append (Script.starts_manager _ _ _)))))

/-- A script that runs through schedules what it makes. -/
theorem exists_starts {x : Measure} (h : (x.script a).run .empty = .ok m) :
    ∃ names, (x.script a).Starts names names := by
  cases x with
  | thermochromicWindow w => exact ⟨_, w.starts⟩
  | condenserLoopOverride c => exact ⟨_, Condenser.starts h⟩
  | comfortHalt c => exact ⟨_, Comfort.starts h⟩
  | discretePackageSizing s => exact ⟨_, Sizing.starts h⟩
  | zoneAverageTemperature z => exact ⟨_, ZoneAverage.starts h⟩
  | curveResultOverride c => exact ⟨_, Curve.starts h⟩
  | vrfModeOverride v => exact ⟨_, Vrf.starts h⟩

end Starts

/-- The calling managers of a measure run its programs, each once and in order. -/
theorem runs_of_build {x : Measure} {a b : Numbering} {o : Model}
    (h : x.build a = .ok (o, b)) :
    o.managers.flatMap CallingManager.programs = o.programs.map Program.name := by
  obtain ⟨ran, -⟩ := build_eq_ok_iff.1 h
  obtain ⟨names, starts⟩ := exists_starts ran
  obtain ⟨ds, all, declared⟩ := Script.run_eq_ok_iff.1 ran
  obtain ⟨named, run⟩ := starts ds all
  obtain ⟨programs, managers⟩ := Model.programs_of_declareAll declared
  -- names are told apart by their texts
  have texts : (o.managers.flatMap CallingManager.programs).map Name.text =
      (o.programs.map Program.name).map Name.text := by
    rw [List.map_map, ← managers, run, ← named, programs]
    rfl
  exact List.map_injective_iff.2 (fun _ _ => Name.eq_of_text) texts

end Measure

end BuildingControl
