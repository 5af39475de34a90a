/-
  BuildingControl.Decimal.Layout

  How a float is written: its shortest decimal, laid out positionally or with an
  exponent.  What differs between the texts of this library is one record of
  choices, `Layout`; the layout itself is one function of it.
-/
import BuildingControl.Decimal.Shortest

namespace BuildingControl.Decimal

/-- The choices a written float rests on. -/
structure Layout where
  /-- Positional for points from here … -/
  plainFrom : Int
  /-- … up to here, both included; with an exponent elsewhere. -/
  plainTo : Option Int
  /-- Whether a whole number ends in `.0`. -/
  pointZero : Bool
  /-- Whether a positive exponent carries a `+`. -/
  plusSign : Bool
  /-- Whether zero keeps its sign. -/
  signedZero : Bool
  /-- Which of two equally near decimals is taken. -/
  tie : Tie
  /-- The texts of what is not a number and of the infinities. -/
  nan : String
  infinity : String

/-- Whether a decimal with this point is written positionally. -/
def Layout.isPlain (l : Layout) (point : Int) : Bool :=
  l.plainFrom ≤ point && (match l.plainTo with
    | some top => point ≤ top
    | none => true)

/-- The digits of a number, without leading zeros. -/
def digitChars (n : Nat) : List Char :=
  Nat.toDigits 10 n

/-- Positional notation: the point after, inside or before the digits. -/
def Layout.plain (l : Layout) (digits : List Char) (point : Int) : List Char :=
  if point ≤ 0 then '0' :: '.' :: (List.replicate (-point).toNat '0' ++ digits)
  else
    let whole := point.toNat
    if digits.length ≤ whole then
      digits ++ List.replicate (whole - digits.length) '0' ++ (if l.pointZero then ['.', '0'] else [])
    else digits.take whole ++ '.' :: digits.drop whole

/-- Exponent notation, the first digit before the point. -/
def Layout.scientific (l : Layout) (digits : List Char) (point : Int) : List Char :=
  let e := point - 1
  let sign := if e < 0 then ['-'] else if l.plusSign then ['+'] else []
  let mant := match digits with
    | [] => []
    | d :: [] => [d]
    | d :: rest => d :: '.' :: rest
  mant ++ 'e' :: sign ++ digitChars e.natAbs

/-- A float without its sign, zero included. -/
def Layout.magnitude (l : Layout) (x : Float) : List Char :=
  if x == 0 then l.plain ['0'] 1
  else
    let d := shortest l.tie x
    let digits := digitChars d.digits
    if l.isPlain d.point then l.plain digits d.point else l.scientific digits d.point

/-- The written float, as characters. -/
def Layout.chars (l : Layout) (x : Float) : List Char :=
  if x.isNaN then l.nan.toList
  else
    let minus := signBit x && (l.signedZero || !(x == 0))
    let body := if x.isInf then l.infinity.toList else l.magnitude x
    if minus then '-' :: body else body

/-- The written float. -/
def Layout.write (l : Layout) (x : Float) : String :=
  String.ofList (l.chars x)

@[simp] theorem toList_write (l : Layout) (x : Float) : (l.write x).toList = l.chars x :=
  String.toList_ofList

end BuildingControl.Decimal
