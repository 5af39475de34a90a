/-
  BuildingControl.Decimal.Reading

  Floats read from text: an optional sign, then digits with an optional point
  and an optional exponent, or one of the words `inf`, `infinity` and `nan` in
  any case.  The value is the float nearest to the decimal.
-/
import BuildingControl.Text.Letter

namespace BuildingControl.Decimal

/-! ## The nearest float -/

/-- The value of a string of digits. -/
def digitsValue (cs : List Char) : Nat :=
  cs.foldl (fun n c => 10 * n + (c.toNat - '0'.toNat)) 0

/-- The float nearest to `mant * 10^exp`.  Exponents far outside the range of floats are
    settled by the place of the first digit alone. -/
def nearest (mant : Nat) (exp : Int) : Float :=
  if mant = 0 then 0
  else
    let point := (Nat.toDigits 10 mant).length + exp
    if 310 < point then Float.ofBits 0x7FF0000000000000
    else if point < -330 then 0
    else Float.ofScientific mant (exp < 0) exp.natAbs

/-- A float with the given sign. -/
def withSign (negative : Bool) (x : Float) : Float :=
  if negative then -x else x

/-! ## The grammar -/

/-- The digits at the front and what follows them. -/
def spanDigits : List Char → List Char × List Char
  | [] => ([], [])
  | c :: rest =>
    if c.isDigit then ((c :: (spanDigits rest).1), (spanDigits rest).2) else ([], c :: rest)

/-- A sign at the front: whether it is a minus, and what follows. -/
def spanSign : List Char → Bool × List Char
  | '-' :: rest => (true, rest)
  | '+' :: rest => (false, rest)
  | cs => (false, cs)

/-- The parts of a decimal literal. -/
structure Literal where
  whole : List Char
  fraction : List Char
  exponent : Int

/-- The exponent after `e` or `E`, which must run to the end; no exponent is zero. -/
def exponentPart? : List Char → Option Int
  | [] => some 0
  | c :: rest =>
    if c = 'e' ∨ c = 'E' then
      let (negative, body) := spanSign rest
      let (digits, tail) := spanDigits body
      if digits.isEmpty || !tail.isEmpty then none
      else some (if negative then -(digitsValue digits : Int) else digitsValue digits)
    else none

/-- Digits with an optional point and an optional exponent; a digit on either side of the point
    is enough. -/
def literal? (cs : List Char) : Option Literal :=
  let (whole, rest) := spanDigits cs
  let (fraction, tail) := match rest with
    | '.' :: more => spanDigits more
    | _ => ([], rest)
  if whole.isEmpty && fraction.isEmpty then none
  else (exponentPart? tail).map fun e => ⟨whole, fraction, e⟩

/-- The float a literal stands for. -/
def Literal.value (l : Literal) : Float :=
  nearest (digitsValue (l.whole ++ l.fraction)) (l.exponent - l.fraction.length)

/-- The float a word stands for. -/
def word? (cs : List Char) : Option Float :=
  match String.ofList (cs.map Char.toLower) with
  | "inf" => some (Float.ofBits 0x7FF0000000000000)
  | "infinity" => some (Float.ofBits 0x7FF0000000000000)
  | "nan" => some (Float.ofBits 0x7FF8000000000000)
  | _ => none

/-- Why a text is no float. -/
inductive ReadFault
  | empty
  | malformed
  deriving DecidableEq

/-- The wording of a read fault. -/
def ReadFault.message : ReadFault → String
  | .empty => "cannot parse float from empty string"
  | .malformed => "invalid float literal"

/-- The float that a text spells. -/
def readChars (cs : List Char) : Except ReadFault Float :=
  if cs.isEmpty then .error .empty
  else
    let (negative, body) := spanSign cs
    match (literal? body).map Literal.value <|> word? body with
    | some x => .ok (withSign negative x)
    | none => .error .malformed

/-- The float that a text spells. -/
def read (s : String) : Except ReadFault Float :=
  readChars s.toList

end BuildingControl.Decimal
