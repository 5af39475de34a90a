/-
  BuildingControl.Decimal.Shortest

  The decimal that stands for a 64-bit float: of all decimals that read back to
  the float, one with the fewest digits, and of those the nearest.

  A finite positive float is `m * 2^q`, and the reals that round to it form an
  interval around it whose ends belong to it exactly when `m` is even.  For one,
  two, three, … digits the two neighbours of the float on that decimal grid are
  tested in exact arithmetic; the first grid with a hit wins.
-/

namespace BuildingControl.Decimal

/-! ## Floats as exact binary fractions -/

/-- The size of a finite float: `mant * 2^exp`, with `lowHalf` set where the float below is
    only half as far away as the float above. -/
structure Binary where
  mant : Nat
  exp : Int
  lowHalf : Bool

/-- The size of a finite float, read off its bits. -/
def Binary.ofFloat (x : Float) : Binary :=
  let bits : Nat := x.toBits.toNat
  let field : Nat := bits / Nat.pow 2 52 % Nat.pow 2 11
  let frac : Nat := bits % Nat.pow 2 52
  if field = 0 then ⟨frac, -1074, false⟩
  else ⟨Nat.pow 2 52 + frac, (field : Int) - 1075, frac == 0 && field != 1⟩

/-- Whether the sign bit of a float is set. -/
def signBit (x : Float) : Bool :=
  Nat.pow 2 63 ≤ x.toBits.toNat

/-! ## The interval that rounds to a float -/

/-- A value and the ends of the interval that rounds to it, over one denominator. -/
structure Span where
  low : Nat
  value : Nat
  high : Nat
  den : Nat
  closed : Bool

/-- The reals that round to a float. -/
def Span.ofBinary (b : Binary) : Span :=
  -- in quarters of the last place; below a power of two the neighbour is half as far
  let low := if b.lowHalf then 4 * b.mant - 1 else 4 * b.mant - 2
  let up := Nat.pow 2 (b.exp - 2).toNat
  let down := Nat.pow 2 (2 - b.exp).toNat
  ⟨low * up, 4 * b.mant * up, (4 * b.mant + 2) * up, down, b.mant % 2 == 0⟩

/-- The number of times `num / den` can be multiplied by ten before it reaches a tenth. -/
def leadingZeros (num den : Nat) : Nat → Nat
  | 0 => 0
  | fuel + 1 => if num * 10 < den then 1 + leadingZeros (num * 10) den fuel else 0

/-- The place of the point: `10^(p-1) ≤ num / den < 10^p`. -/
def pointOf (num den : Nat) : Int :=
  if den ≤ num then (Nat.toDigits 10 (num / den)).length
  else -(leadingZeros num den 400 : Int)

/-! ## The selection -/

/-- Which of two equally near decimals of the same length is taken. -/
inductive Tie
  | toEven
  | awayFromZero
  deriving DecidableEq

/-- A decimal without sign: `digits * 10^(point - count)`, `count` the number of digits. -/
structure Numeral where
  digits : Nat
  point : Int
  deriving DecidableEq

/-- Whether `c` steps of the grid with denominator `den * scale` lie in the interval. -/
def Span.holds (s : Span) (c step scale : Nat) : Bool :=
  let place := c * step * s.den
  let low := s.low * scale
  let high := s.high * scale
  if s.closed then low ≤ place && place ≤ high else low < place && place < high

/-- The nearest of a value's two neighbours on the grid of `n` digits that lies in the
    interval, if one does.  One grid step is `step / scale`. -/
def Span.hit? (s : Span) (tie : Tie) (point : Int) (n : Nat) : Option Nat :=
  let step := Nat.pow 10 (point - n).toNat
  let scale := Nat.pow 10 (n - point).toNat
  let below := s.value * scale / (step * s.den)
  let rest := s.value * scale % (step * s.den)
  let above := below + 1
  match s.holds below step scale, s.holds above step scale with
  | true, false => some below
  | false, true => some above
  | false, false => none
  | true, true =>
    -- both round to the value, so the nearer one is taken
    if 2 * rest < step * s.den then some below
    else if step * s.den < 2 * rest then some above
    else match tie with
      | .toEven => some (if below % 2 = 0 then below else above)
      | .awayFromZero => some above

/-- A grid point that carries over to the next power of ten is that power. -/
def Numeral.ofGrid (c n : Nat) (point : Int) : Numeral :=
  if c = Nat.pow 10 n then ⟨1, point + 1⟩ else ⟨c, point⟩

/-- The shortest decimal for a positive finite float; seventeen digits are always enough. -/
def shortest (tie : Tie) (x : Float) : Numeral :=
  let s := Span.ofBinary (Binary.ofFloat x)
  let point := pointOf s.value s.den
  let found := (List.range 17).findSome? fun i =>
    (s.hit? tie point (i + 1)).map fun c => Numeral.ofGrid c (i + 1) point
  found.getD ⟨0, 1⟩

end BuildingControl.Decimal
