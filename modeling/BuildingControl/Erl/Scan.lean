/-
  BuildingControl.Erl.Scan

  The words of a text, found in one pass over the bytes of its UTF-8 form.  Words
  and numeric literals are made of ASCII characters, which are single bytes; the
  bytes of any other character are 128 or more, belong to no class here, and are
  passed over.
-/

namespace BuildingControl.Erl

/-! ## Classes of bytes -/

/-- The digits. -/
def isDigitByte (b : UInt8) : Bool :=
  '0'.toUInt8 ≤ b && b ≤ '9'.toUInt8

/-- The ASCII letters. -/
def isLetterByte (b : UInt8) : Bool :=
  ('A'.toUInt8 ≤ b && b ≤ 'Z'.toUInt8) || ('a'.toUInt8 ≤ b && b ≤ 'z'.toUInt8)

/-- The bytes a word can start with. -/
def startsWordByte (b : UInt8) : Bool :=
  isLetterByte b || b == '_'.toUInt8

/-- The bytes a word goes on with. -/
def isWordByte (b : UInt8) : Bool :=
  isLetterByte b || isDigitByte b || b == '_'.toUInt8

/-- What the `e` of an exponent takes along: a digit or a sign. -/
def startsExponentByte (b : UInt8) : Bool :=
  isDigitByte b || b == '-'.toUInt8 || b == '+'.toUInt8

/-! ## Scanning -/

/-- What is left of the bytes behind a numeric literal whose first byte is taken. -/
def skipNumber : List UInt8 → List UInt8
  | [] => []
  | b :: bs =>
    if isDigitByte b || b == '.'.toUInt8 then skipNumber bs
    else if b == 'e'.toUInt8 || b == 'E'.toUInt8 then
      match bs with
      | [] => [b]
      | d :: ds => if startsExponentByte d then skipNumber ds else b :: d :: ds
    else b :: bs

/-- The words among bytes, in at most `fuel` steps.  A numeric literal is skipped with its
    exponent, and so is the name of a function behind its `@`. -/
def scanBytes : Nat → List UInt8 → List (List UInt8)
  | 0, _ => []
  | _ + 1, [] => []
  | fuel + 1, b :: bs =>
    if isDigitByte b || (b == '.'.toUInt8 && bs.head?.any isDigitByte) then
      scanBytes fuel (skipNumber bs)
    else if b == '@'.toUInt8 then scanBytes fuel (bs.dropWhile isWordByte)
    else if startsWordByte b then
      (b :: bs.takeWhile isWordByte) :: scanBytes fuel (bs.dropWhile isWordByte)
    else scanBytes fuel bs

/-- The text of ASCII bytes. -/
def asciiText (bs : List UInt8) : String :=
  String.ofList (bs.map Char.ofUInt8)

/-- The words of a text; each step takes at least one of its bytes. -/
def scanWords (text : String) : List String :=
  let bytes := text.toByteArray.data.toList
  (scanBytes bytes.length bytes).map asciiText

end BuildingControl.Erl
