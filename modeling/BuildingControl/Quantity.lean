/-
  BuildingControl.Quantity

  Temperatures, volume flows and durations.  Each is held in one unit (kelvin,
  cubic metres per second, seconds) and converted at the edges, one float
  operation a step.  Arguments come as text with a unit, such as `45 F` or
  `1200 cfm`.
-/
import BuildingControl.Text.Blank
import BuildingControl.Number

namespace BuildingControl.Quantity

/-! ## Quantities -/

/-- An absolute temperature, in kelvin. -/
structure Temperature where
  kelvin : Float

/-- The ratio of a Fahrenheit degree to a kelvin. -/
def fahrenheitDegree : Float := 5.0 / 9.0

/-- The temperature of so many degrees Celsius. -/
def Temperature.ofCelsius (x : Float) : Temperature := ⟨x + 273.15⟩

/-- The temperature of so many degrees Fahrenheit. -/
def Temperature.ofFahrenheit (x : Float) : Temperature := ⟨(x + 459.67) * fahrenheitDegree⟩

/-- A temperature in degrees Celsius. -/
def Temperature.celsius (t : Temperature) : Float := t.kelvin - 273.15

/-- A temperature in degrees Fahrenheit. -/
def Temperature.fahrenheit (t : Temperature) : Float :=
  t.kelvin * (1.0 / fahrenheitDegree) - 459.67

/-- Degrees Fahrenheit as degrees Celsius. -/
def fahrenheitToCelsius (x : Float) : Float := (Temperature.ofFahrenheit x).celsius

/-- A volume flow, in cubic metres per second. -/
structure VolumeFlow where
  cubicMetresPerSecond : Float

/-- The flow of so many cubic feet per minute. -/
def VolumeFlow.ofCubicFeetPerMinute (x : Float) : VolumeFlow := ⟨x * (2.831685e-2 / 60.0)⟩

/-- The flow of so many litres per second. -/
def VolumeFlow.ofLitresPerSecond (x : Float) : VolumeFlow := ⟨x / 1000.0⟩

/-- A length of time, in seconds. -/
structure Duration where
  seconds : Float

/-- The duration of so many hours. -/
def Duration.ofHours (x : Float) : Duration := ⟨x * 3600.0⟩

/-- The duration of so many minutes. -/
def Duration.ofMinutes (x : Float) : Duration := ⟨x * 60.0⟩

/-- A duration in minutes. -/
def Duration.minutes (d : Duration) : Float := d.seconds / 60.0

/-! ## Faults -/

/-- The quantities that arguments are read as. -/
inductive Kind
  | temperature
  | volumeFlow
  deriving DecidableEq

/-- The name of a quantity in messages. -/
def Kind.title : Kind → String
  | .temperature => "Temperature"
  | .volumeFlow => "Volume flow rate"

/-- The range a quantity has to lie in. -/
def Kind.range : Kind → String
  | .temperature => "Absolute temperature must be > 0 K"
  | .volumeFlow => "Volume flow rate must be non-negative"

/-- Why a text is no quantity. -/
inductive Fault
  | notANumber (input : String)
  | unknownUnit (kind : Kind) (unit : String)
  | outOfRange (kind : Kind) (value : Float)

/-- The wording of a fault. -/
def Fault.message : Fault → String
  | .notANumber input => s!"Parse error: Could not parse numeric value from '{input}'"
  | .unknownUnit kind unit => s!"Unknown unit '{unit}' for {kind.title}"
  | .outOfRange kind value => s!"Value {Number.inMessage value} out of range: {kind.range}"

/-! ## Reading -/

/-- Whether a character can belong to the number in front of a unit. -/
def isNumberChar (c : Char) : Bool :=
  c.isDigit || c == '.' || c == '-' || c == '+' || c == 'e' || c == 'E'

/-- Unit letters are read without regard to case.  Among the letters that units are spelled
    with, the capitals are the ASCII ones and the kelvin sign. -/
def unitLetter (c : Char) : Char :=
  if c == '\u212A' then 'k' else c.toLower

/-- The spelling of a unit with its letters in lower case. -/
def unitKey (unit : String) : String :=
  String.ofList (unit.toList.map unitLetter)

/-- The number at the front of a text and the unit after it. -/
def split (input : String) : Except Fault (Float × String) :=
  let cs := Text.trimChars input.toList
  let number := Text.trimChars (cs.takeWhile isNumberChar)
  let unit := String.ofList (Text.trimChars (cs.dropWhile isNumberChar))
  match Decimal.readChars number with
  | .ok x => .ok (x, unit)
  | .error _ => .error (.notANumber input)

/-- The temperature unit with this spelling; no unit is degrees Celsius. -/
def temperatureUnit? (unit : String) : Option (Float → Temperature) :=
  match unitKey unit with
  | "" => some .ofCelsius
  | "c" => some .ofCelsius
  | "°c" => some .ofCelsius
  | "celsius" => some .ofCelsius
  | "f" => some .ofFahrenheit
  | "°f" => some .ofFahrenheit
  | "fahrenheit" => some .ofFahrenheit
  | "k" => some .mk
  | "kelvin" => some .mk
  | _ => none

/-- The volume flow unit with this spelling; no unit is cubic metres per second. -/
def volumeFlowUnit? (unit : String) : Option (Float → VolumeFlow) :=
  match unitKey unit with
  | "" => some .mk
  | "m3/s" => some .mk
  | "m³/s" => some .mk
  | "cfm" => some .ofCubicFeetPerMinute
  | "ft3/min" => some .ofCubicFeetPerMinute
  | "l/s" => some .ofLitresPerSecond
  | _ => none

/-- A temperature argument; it must lie above absolute zero. -/
def readTemperature (input : String) : Except Fault Temperature := do
  let (value, unit) ← split input
  match temperatureUnit? unit with
  | none => .error (.unknownUnit .temperature unit)
  | some of =>
    let t := of value
    if t.kelvin.isFinite && 0 < t.kelvin then .ok t
    else .error (.outOfRange .temperature value)

/-- A volume flow argument; it must not be negative. -/
def readVolumeFlow (input : String) : Except Fault VolumeFlow := do
  let (value, unit) ← split input
  match volumeFlowUnit? unit with
  | none => .error (.unknownUnit .volumeFlow unit)
  | some of =>
    if value < 0 then .error (.outOfRange .volumeFlow value) else .ok (of value)

end BuildingControl.Quantity
