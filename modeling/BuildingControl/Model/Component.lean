/-
  BuildingControl.Model.Component

  The components of a building that programs act on.  A component is classified
  once, into a small closed set of kinds; each kind knows under which type its
  actuators go and which controls it offers.
-/
import BuildingControl.Text.Blank
import BuildingControl.Text.Letter

namespace BuildingControl.Model

/-- How fast a pump can run. -/
inductive PumpSpeed
  | constant
  | variable
  deriving DecidableEq

/-- How a schedule is written. -/
inductive ScheduleForm
  | compact
  | constant
  | year
  deriving DecidableEq

/-- The kind of a component. -/
inductive ComponentKind
  | pump (speed : PumpSpeed)
  /-- A heating or cooling coil, which is read through sensors only. -/
  | coil
  | plantLoop
  | airLoop
  | surface
  | systemNode
  | schedule (form : ScheduleForm)
  | curve
  | vrfHeatPump
  | vrfTerminal
  /-- The sizing results of an air loop. -/
  | airSystemSizing
  deriving DecidableEq

namespace ComponentKind

/-- The short name of a kind. -/
def label : ComponentKind → String
  | pump _ => "pump"
  | coil => "coil"
  | plantLoop => "plant loop"
  | airLoop => "air loop"
  | surface => "surface"
  | systemNode => "system node"
  | schedule _ => "schedule"
  | curve => "curve"
  | vrfHeatPump => "vrf heat pump"
  | vrfTerminal => "vrf terminal"
  | airSystemSizing => "air system sizing"

/-- The type that actuators of a kind go under, if it has actuators. -/
def actuatorType? : ComponentKind → Option String
  | pump _ => some "Pump"
  | coil => none
  | plantLoop => some "Plant Loop Overall"
  | airLoop => some "AirLoopHVAC"
  | surface => some "Surface"
  | systemNode => some "System Node Setpoint"
  | schedule .compact => some "Schedule:Compact"
  | schedule .constant => some "Schedule:Constant"
  | schedule .year => some "Schedule:Year"
  | curve => some "Curve"
  | vrfHeatPump => some "Variable Refrigerant Flow Heat Pump"
  | vrfTerminal => some "Variable Refrigerant Flow Terminal Unit"
  | airSystemSizing => some "Sizing:System"

/-- The controls a kind offers, in their usual spelling. -/
def controls : ComponentKind → List String
  | pump _ => ["Pump Mass Flow Rate", "Pump Pressure Rise"]
  | coil => []
  | plantLoop => ["On/Off Supervisory"]
  | airLoop => ["Availability Status"]
  | surface => ["Construction State"]
  | systemNode =>
    ["Temperature Setpoint", "Temperature Minimum Setpoint", "Temperature Maximum Setpoint",
     "Humidity Ratio Setpoint", "Mass Flow Rate Setpoint"]
  | schedule _ => ["Schedule Value"]
  | curve => ["Curve Result"]
  | vrfHeatPump => ["Operating Mode"]
  | vrfTerminal => ["Part Load Ratio"]
  | airSystemSizing =>
    ["Main Supply Volume Flow Rate", "Main Supply Cooling Capacity",
     "Main Supply Heating Capacity"]

/-- The usual spelling of a control that the kind offers; case and blanks around it do not
    matter. -/
def control? (kind : ComponentKind) (control : String) : Option String :=
  kind.controls.find? fun c => Text.sameLetters c (Text.trim control)

/-- Whether a kind offers a control. -/
def supports (kind : ComponentKind) (control : String) : Bool :=
  (kind.control? control).isSome

end ComponentKind

/-- A component of the building. -/
structure Component where
  name : String
  kind : ComponentKind
  deriving DecidableEq

end BuildingControl.Model
