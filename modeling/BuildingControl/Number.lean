/-
  BuildingControl.Number

  The numbers of control programs: finite floats, how program text and messages
  write them, and the rounding that unit-converted arguments get.
-/
import BuildingControl.Decimal.Layout
import BuildingControl.Decimal.Reading

namespace BuildingControl.Number

open Decimal

/-! ## Writing -/

/-- Program text is positional from a hundred-thousandth to below ten to the sixteenth, keeps
    `.0` on whole numbers, and has one zero. -/
def programLayout : Layout where
  plainFrom := -4
  plainTo := some 16
  pointZero := true
  plusSign := false
  signedZero := false
  tie := .toEven
  nan := "NaN"
  infinity := "inf"

/-- Messages never use an exponent and show whole numbers without a point. -/
def messageLayout : Layout where
  plainFrom := -400
  plainTo := none
  pointZero := false
  plusSign := false
  signedZero := true
  tie := .awayFromZero
  nan := "NaN"
  infinity := "inf"

/-- A number as program text writes it. -/
def format (x : Float) : String :=
  programLayout.write x

/-- A number as messages show it. -/
def inMessage (x : Float) : String :=
  messageLayout.write x

/-! ## Finite numbers -/

/-- A number that had to be finite and is not: what it was for, and its value. -/
structure NonFinite where
  what : String
  value : Float

/-- The wording of the fault. -/
def NonFinite.message (n : NonFinite) : String :=
  s!"Non-finite numeric value for {n.what}: {inMessage n.value}"

/-- A number that has to be finite. -/
def requireFinite (what : String) (x : Float) : Except NonFinite Float :=
  if x.isFinite then .ok x else .error ⟨what, x⟩

/-- The program text of a number that has to be finite. -/
def formatFinite (what : String) (x : Float) : Except NonFinite String :=
  (requireFinite what x).map format

/-! ## Rounding and nearness -/

/-- The nearest whole number; a half goes away from zero. -/
def roundHalfAway (x : Float) : Float :=
  if x.isFinite then
    let b := Binary.ofFloat x
    if 0 ≤ b.exp then x
    else
      let unit := Nat.pow 2 (-b.exp).toNat
      withSign (signBit x) (Float.ofNat ((2 * b.mant + unit) / (2 * unit)))
  else x

/-- `acc * base ^ n`, by repeated squaring. -/
def mulPow (acc base : Float) (n : Nat) : Nat → Float
  | 0 => acc
  | fuel + 1 =>
    if n = 0 then acc
    else mulPow (if n % 2 = 1 then acc * base else acc) (base * base) (n / 2) fuel

/-- Ten to a whole power. -/
def tenTo (d : Int) : Float :=
  let p := mulPow 1 10 d.natAbs d.natAbs
  if d < 0 then 1 / p else p

/-- The number rounded to a count of decimal places. -/
def roundTo (x : Float) (places : Int) : Float :=
  roundHalfAway (x * tenTo places) / tenTo places

/-- The larger of two numbers; one that is not a number gives way. -/
def larger (a b : Float) : Float :=
  if a.isNaN then b else if a < b then b else a

/-- Whether two numbers differ by no more than an absolute or a relative tolerance. -/
def nearlyEqual (abs rel a b : Float) : Bool :=
  let gap := (a - b).abs
  gap ≤ abs || gap ≤ rel * larger a.abs b.abs

/-- The absolute tolerance used when none is given. -/
def absTolerance : Float := 1e-12

/-- The relative tolerance used when none is given. -/
def relTolerance : Float := 1e-9

end BuildingControl.Number
