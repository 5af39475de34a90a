/-
  BuildingControl.Measure.Thermochromic

  Thermochromic windows: the construction of a window is swapped every timestep
  by its outside face temperature, one construction for each temperature band,
  picked by a threshold table over the surface temperature.
-/
import BuildingControl.Measure.Script

namespace BuildingControl.Measure

open Erl Model

/-- The construction used while the surface is at or below a temperature in °C. -/
structure WindowState where
  upTo : Float
  construction : String
  deriving BEq

/-- A window whose construction follows its temperature. -/
structure Thermochromic where
  window : String
  /-- The bands, coldest first. -/
  states : List WindowState
  /-- The construction above the last band. -/
  defaultConstruction : String
  manager : String
  deriving BEq

namespace Thermochromic

/-- The usual bands: the temperature each ends at, and the number of its construction. -/
def usualBands : List (Float × Nat) :=
  [(26.0, 25), (28.0, 27), (30.0, 29), (32.0, 31), (34.0, 33), (36.0, 35), (38.0, 37), (40.0, 39),
   (42.0, 41), (44.0, 43), (47.5, 45), (52.5, 50), (57.5, 55), (62.5, 60), (67.5, 65), (72.5, 70),
   (77.5, 75), (82.5, 80)]

/-- The arguments that are not given. -/
def default : Thermochromic where
  window := "Perimeter_ZN_1_wall_south_Window_1"
  states := usualBands.map fun b => ⟨b.1, s!"TCwindow_{b.2}"⟩
  defaultConstruction := "TCwindow_85"
  manager := "My thermochromic window emulator"

/-- The name of the surface temperature sensor. -/
def sensorName (w : Thermochromic) : String := sanitize w.window ++ "_Tout"

/-- The name of the construction actuator. -/
def actuatorName (w : Thermochromic) : String := sanitize w.window ++ "_Construct"

/-- The name of the program. -/
def programName (w : Thermochromic) : String := sanitize w.window ++ "_Control"

/-- The constructions in use, band by band, the default last. -/
def constructions (w : Thermochromic) : List String :=
  w.states.map WindowState.construction ++ [w.defaultConstruction]

/-- The handle of each construction, declared where it is first used.  Two constructions whose
    names lead to one handle are refused; `seen` holds the ones before. -/
def handles (seen : List (String × Name)) : List String → Script
  | [] => []
  | c :: rest =>
    match Name.ofText? (sanitize c) with
    | .error fault => [.error (.program fault)]
    | .ok handle =>
      let here : Script := match seen.find? fun h => h.2.key == handle.key with
        | none => [.ok (.construction ⟨handle, c⟩)]
        | some (other, _) =>
          if other == c then []
          else [.error (.refused .thermochromicWindow (.sharedHandle other c handle.text))]
      here ++ handles (seen ++ [(c, handle)]) rest

-- the text of a handle matters only through the name it is, so it is never computed here
attribute [local irreducible] sanitize

theorem handles_cons (seen : List (String × Name)) (c : String) (rest : List String) :
    handles seen (c :: rest) = match Name.ofText? (sanitize c) with
      | .error fault => [.error (.program fault)]
      | .ok handle =>
        (match seen.find? fun h => h.2.key == handle.key with
          | none => [.ok (.construction ⟨handle, c⟩)]
          | some (other, _) =>
            if other == c then []
            else [.error (.refused .thermochromicWindow (.sharedHandle other c handle.text))]) ++
          handles (seen ++ [(c, handle)]) rest := rfl

/-- The constructions in use, each with the spelling of its handle. -/
def handleTable (w : Thermochromic) : List (String × String) :=
  w.constructions.map fun c => (c, sanitize c)

/-- The handle of a construction, found by the text of the construction; empty for one that is
    not in use. -/
def handleOf (w : Thermochromic) (construction : String) : String :=
  ((w.handleTable.find? fun h => h.1 == construction).map Prod.snd).getD ""

/-- Every construction in use is found. -/
theorem handleOf_eq {w : Thermochromic} {c : String} (h : c ∈ w.constructions) :
    w.handleOf c = sanitize c := by
  have found : (w.handleTable.find? fun h => h.1 == c).isSome = true :=
    List.find?_isSome.2 ⟨(c, sanitize c), List.mem_map_of_mem h, beq_self_eq_true c⟩
  obtain ⟨⟨d, handle⟩, hd⟩ := Option.isSome_iff_exists.1 found
  obtain ⟨raw, -, entry⟩ := List.mem_map.1 (List.mem_of_find?_eq_some hd)
  obtain ⟨text, spelling⟩ := Prod.mk.inj entry
  have same : d = c := by simpa using List.find?_some hd
  rw [handleOf, hd, Option.map_some, Option.getD_some, ← spelling, text, same]

theorem construction_mem {w : Thermochromic} {s : WindowState} (h : s ∈ w.states) :
    s.construction ∈ w.constructions :=
  List.mem_append_left _ (List.mem_map_of_mem h)

theorem defaultConstruction_mem (w : Thermochromic) : w.defaultConstruction ∈ w.constructions :=
  List.mem_append_right _ List.mem_cons_self

/-- The bands as a threshold table. -/
def table (w : Thermochromic) : TableText where
  subject := w.sensorName
  comparison := .le
  rules := w.states.map fun s => ⟨s.upTo, w.actuatorName, w.handleOf s.construction⟩
  otherwise := some ⟨w.actuatorName, w.handleOf w.defaultConstruction⟩

/-- Every row of the table assigns the handle of its construction. -/
theorem table_eq (w : Thermochromic) : w.table =
    ⟨w.sensorName, .le, w.states.map fun s => ⟨s.upTo, w.actuatorName, sanitize s.construction⟩,
      some ⟨w.actuatorName, sanitize w.defaultConstruction⟩⟩ := by
  have row (s : WindowState) (hs : s ∈ w.states) :
      (⟨s.upTo, w.actuatorName, w.handleOf s.construction⟩ : RuleText) =
        ⟨s.upTo, w.actuatorName, sanitize s.construction⟩ := by
    rw [handleOf_eq (construction_mem hs)]
  rw [table, handleOf_eq w.defaultConstruction_mem, List.map_congr_left row]

/-- The objects of the measure. -/
def script (w : Thermochromic) : Script :=
  Script.require (if (Text.trim w.window).isEmpty
    then (.error (.refused .thermochromicWindow .emptyWindow) : Except Fault Unit) else .ok ()) ++
  Script.sensor w.sensorName w.window "Surface Outside Face Temperature" ++
  Script.actuator w.actuatorName w.window .surface "Construction State" ++
  handles [] w.constructions ++
  Script.one (do return .program ⟨← Name.ofText? w.programName, ← w.table.build⟩) ++
  Script.manager w.manager .beginTimestepBeforePredictor w.programName

end Thermochromic

end BuildingControl.Measure
