/-
  BuildingControl.Coding.Component

  Choices, components and reporting settings as parts of a document.
-/
import BuildingControl.Document.Source
import BuildingControl.Model.Keyword

namespace BuildingControl.Coding

open Document Document.Source Model

/-! ## Choices -/

/-- The choice with this word. -/
def choice? (α : Type) [Keyword α] [Source ν] (v : ν) : Option α :=
  (word? v).bind (Keyword.ofWord? α)

/-- A choice as its word. -/
def choiceValue [Keyword α] (a : α) : Value :=
  .text (word a)

/-- The calling point with this word, in any spelling. -/
def callingPoint? [Source ν] (v : ν) : Option CallingPoint :=
  (text? v).bind fun s => (CallingPoint.ofText? s).toOption

/-! ## Components -/

/-- The tag of a kind of component. -/
def kindTag : ComponentKind → String
  | .pump _ => "pump"
  | .coil => "coil"
  | .plantLoop => "plant_loop"
  | .airLoop => "air_loop"
  | .surface => "surface"
  | .systemNode => "system_node"
  | .schedule _ => "schedule"
  | .curve => "curve"
  | .vrfHeatPump => "vrf_heat_pump"
  | .vrfTerminal => "vrf_terminal"
  | .airSystemSizing => "air_system_sizing"

/-- What a kind of component holds beside its tag. -/
def kindFields : ComponentKind → List (String × Value)
  | .pump speed => [("speed", choiceValue speed)]
  | .schedule form => [("kind", choiceValue form)]
  | _ => []

/-- A kind of component as an object. -/
def kindValue (kind : ComponentKind) : Value :=
  .object (("type", .text (kindTag kind)) :: kindFields kind)

/-- The kind of component with this tag. -/
def kindOfTag? (tag : String) (rest : Content) : Option ComponentKind :=
  match tag with
  | "pump" => do
    let r ← record? ["speed"] rest
    return .pump (← fallback r "speed" .constant (choice? PumpSpeed))
  | "coil" => some .coil
  | "plant_loop" => some .plantLoop
  | "air_loop" => some .airLoop
  | "surface" => some .surface
  | "system_node" => some .systemNode
  | "schedule" => do
    let r ← record? ["kind"] rest
    return .schedule (← fallback r "kind" .compact (choice? ScheduleForm))
  | "curve" => some .curve
  | "vrf_heat_pump" => some .vrfHeatPump
  | "vrf_terminal" => some .vrfTerminal
  | "air_system_sizing" => some .airSystemSizing
  | _ => none

/-- A kind of component. -/
def kind? [TaggedSource ν] (v : ν) : Option ComponentKind :=
  (TaggedSource.tagged? "type" v).bind fun t => kindOfTag? t.1 t.2

/-- A component as an object. -/
def componentValue (c : Component) : Value :=
  .object [("name", .text c.name), ("kind", kindValue c.kind)]

/-- A component. -/
def component? [TaggedSource ν] (v : ν) : Option Component := do
  let r ← record? ["name", "kind"] v
  let name ← required r "name" text?
  let kind ← required r "kind" kind?
  return ⟨name, kind⟩

/-! ## Reporting settings -/

/-- Reporting settings as an object. -/
def reportingValue (r : Reporting) : Value :=
  .object
    [("actuator_availability", choiceValue r.actuatorAvailability),
     ("internal_variable_availability", choiceValue r.internalVariableAvailability),
     ("debug_level", choiceValue r.debugLevel)]

/-- Reporting settings; what is not given is not reported. -/
def reporting? [Source ν] (v : ν) : Option Reporting := do
  let r ← record? ["actuator_availability", "internal_variable_availability", "debug_level"] v
  let actuators ← fallback r "actuator_availability" .none (choice? DictionaryReporting)
  let internals ← fallback r "internal_variable_availability" .none (choice? DictionaryReporting)
  let level ← fallback r "debug_level" .none (choice? DebugLevel)
  return ⟨actuators, internals, level⟩

end BuildingControl.Coding
