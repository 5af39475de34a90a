/-
  BuildingControl.Model.InputFile

  A model as simulation input: one object after another, each field on a line of
  its own with a comment that says what it is.  A field ends in a comma, the
  last one of an object in a semicolon, and everything after `!` is comment.
-/
import BuildingControl.Model.Basic

namespace BuildingControl.Model

open Erl

/-! ## Objects of an input file -/

/-- An object of an input file: its class, and its fields with their comments. -/
structure InputObject where
  cls : String
  fields : List (String × String)

/-- Comments start in this column, where the value leaves room for it. -/
def cellWidth : Nat := 28

/-- A value and its separator, padded to the column of the comments. -/
def cell (value : String) (separator : String) : String :=
  let text := value ++ separator
  text ++ String.ofList (List.replicate (cellWidth - text.length) ' ')

/-- One field on its line. -/
def fieldLine (separator : String) (field : String × String) : String :=
  "    " ++ cell field.1 separator ++ " !- " ++ field.2 ++ "\n"

/-- The fields of an object, the last one closed. -/
def fieldLines : List (String × String) → String
  | [] => ""
  | [f] => fieldLine ";" f
  | f :: rest => fieldLine "," f ++ fieldLines rest

/-- An object and the empty line after it. -/
def InputObject.text (o : InputObject) : String :=
  o.cls ++ ",\n" ++ fieldLines o.fields ++ "\n"

/-! ## The objects of a model -/

/-- Fields numbered from one. -/
def numberedFields (comment : String) (values : List String) : List (String × String) :=
  values.zipIdx.map fun v => (v.1, s!"{comment} {v.2 + 1}")

/-- The reporting settings. -/
def Reporting.inputObject (r : Reporting) : InputObject where
  cls := "Output:EnergyManagementSystem"
  fields :=
    [(word r.actuatorAvailability, "Actuator Availability Dictionary Reporting"),
     (word r.internalVariableAvailability, "Internal Variable Availability Dictionary Reporting"),
     (word r.debugLevel, "EMS Runtime Language Debug Output Level")]

/-- A sensor. -/
def Sensor.inputObject (s : Sensor) : InputObject where
  cls := "EnergyManagementSystem:Sensor"
  fields :=
    [(s.name.text, "Name"), (s.key, "Output:Variable or Output:Meter Index Key Name"),
     (s.output, "Output:Variable or Output:Meter Name")]

/-- An actuator. -/
def Actuator.inputObject (a : Actuator) : InputObject where
  cls := "EnergyManagementSystem:Actuator"
  fields :=
    [(a.name.text, "Name"), (a.component, "Actuated Component Unique Name"),
     (a.componentType, "Actuated Component Type"), (a.control, "Actuated Component Control Type")]

/-- A global variable. -/
def globalObject (name : Name) : InputObject where
  cls := "EnergyManagementSystem:GlobalVariable"
  fields := [(name.text, "Erl Variable 1 Name")]

/-- A trend variable. -/
def Trend.inputObject (t : Trend) : InputObject where
  cls := "EnergyManagementSystem:TrendVariable"
  fields :=
    [(t.name.text, "Name"), (t.source.text, "EMS Variable Name"),
     (toString t.timesteps, "Number of Timesteps to be Logged")]

/-- An internal variable. -/
def InternalVariable.inputObject (v : InternalVariable) : InputObject where
  cls := "EnergyManagementSystem:InternalVariable"
  fields :=
    [(v.name.text, "Name"), (v.key, "Internal Data Index Key Name"),
     (v.dataType, "Internal Data Type")]

/-- A handle on a construction. -/
def ConstructionIndex.inputObject (c : ConstructionIndex) : InputObject where
  cls := "EnergyManagementSystem:ConstructionIndexVariable"
  fields := [(c.name.text, "Name"), (c.construction, "Construction Object Name")]

/-- A program or subroutine, one field a line. -/
def Program.inputObject (cls : String) (p : Program) : InputObject where
  cls := cls
  fields := (p.name.text, "Name") :: numberedFields "Program Line" p.body.lines

/-- A calling manager. -/
def CallingManager.inputObject (m : CallingManager) : InputObject where
  cls := "EnergyManagementSystem:ProgramCallingManager"
  fields :=
    (m.name, "Name") :: (word m.callingPoint, "EnergyPlus Model Calling Point") ::
      numberedFields "Program Name" (m.programs.map Name.text)

/-- A reported variable. -/
def OutputVariable.inputObject (o : OutputVariable) : InputObject where
  cls := "EnergyManagementSystem:OutputVariable"
  fields :=
    [(o.name, "Name"), (o.source.text, "EMS Variable Name"),
     (word o.data, "Type of Data in Variable"), (word o.frequency, "Update Frequency"),
     ("", "EMS Program or Subroutine Name"), (o.units.getD "", "Units")]

/-- A request for output. -/
def OutputRequest.inputObject (r : OutputRequest) : InputObject where
  cls := "Output:Variable"
  fields :=
    [(r.key, "Key Value"), (r.variableName, "Variable Name"),
     (word r.frequency, "Reporting Frequency")]

/-- The objects of a model in the order of an input file. -/
def inputObjects (m : Model) : List InputObject :=
  m.reporting.inputObject :: (m.sensors.map Sensor.inputObject ++
  (m.actuators.map Actuator.inputObject ++ (m.globals.map globalObject ++
  (m.trends.map Trend.inputObject ++ (m.internals.map InternalVariable.inputObject ++
  (m.constructions.map ConstructionIndex.inputObject ++
  (m.programs.map (Program.inputObject "EnergyManagementSystem:Program") ++
  (m.subroutines.map (Program.inputObject "EnergyManagementSystem:Subroutine") ++
  (m.managers.map CallingManager.inputObject ++ (m.outputs.map OutputVariable.inputObject ++
   m.requests.map OutputRequest.inputObject))))))))))

/-- The model as the text of an input file. -/
def inputFile (m : Model) : String :=
  String.join (m.inputObjects.map InputObject.text)

end BuildingControl.Model
