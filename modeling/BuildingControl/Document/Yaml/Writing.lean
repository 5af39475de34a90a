/-
  BuildingControl.Document.Yaml.Writing

  Values as YAML text: blocks indented by two spaces, the dashes of a list at
  the column of the field it belongs to.  A text is written plain where that
  reads back as the same text, and in quotes or as a literal block elsewhere.
-/
import BuildingControl.Decimal.Layout
import BuildingControl.Document.Value
import BuildingControl.Document.Yaml.Reading

namespace BuildingControl.Document.Yaml

open Decimal

/-! ## Numbers -/

/-- Numbers are written as in program text, but zero keeps its sign. -/
def numberLayout : Layout where
  plainFrom := -4
  plainTo := some 16
  pointZero := true
  plusSign := false
  signedZero := true
  tie := .toEven
  nan := ".nan"
  infinity := ".inf"

/-- A whole number. -/
def intChars (n : Int) : List Char :=
  if n < 0 then '-' :: digitChars n.natAbs else digitChars n.natAbs

/-! ## What a text is made of -/

/-- A character that breaks a line, in a text that is to be written. -/
def breaksLine (c : Char) : Bool :=
  isBreak c || c == '\r' || c == '\u0085'

/-- A character that needs no escape. -/
def isPrintable (c : Char) : Bool :=
  let n := c.toNat
  n == 0x0A || (0x20 ≤ n && n ≤ 0x7E) || (0xA0 ≤ n && n ≤ 0xD7FF)
    || (0xE000 ≤ n && n ≤ 0xFFFD && n != 0xFEFF) || 0x10000 ≤ n

/-- Whether a character is followed by a blank, a break or nothing. -/
def endsHere : List Char → Bool
  | [] => true
  | c :: _ => isBlank c || breaksLine c

/-- Whether the first character, before this text, would be read as something else than text. -/
def startsAsIndicator (c : Char) (rest : List Char) : Bool :=
  [',', '#', '[', ']', '\x7b', '\x7d', '&', '*', '!', '|', '>', '\x27', '"', '%', '@',
    '\x60'].contains c
    || (['?', ':', '-'].contains c && endsHere rest)

/-- Whether a later character would be read as something else than text: a colon before a gap,
    or a hash after one.  `afterGap` tells whether a gap precedes. -/
def hasIndicator (afterGap : Bool) : List Char → Bool
  | [] => false
  | c :: rest =>
    (c == ':' && endsHere rest) || (c == '#' && afterGap)
      || hasIndicator (isBlank c || breaksLine c) rest

/-- Whether a text starts like a mark between documents. -/
def startsAsMark : List Char → Bool
  | '-' :: '-' :: '-' :: _ => true
  | '.' :: '.' :: '.' :: _ => true
  | _ => false

/-- Whether a text has indicators that a plain scalar may not have. -/
def hasIndicators : List Char → Bool
  | [] => false
  | c :: rest =>
    startsAsMark (c :: rest) || startsAsIndicator c rest
      || hasIndicator (isBlank c || breaksLine c) rest

/-- Whether a character of the first kind comes right before one of the second. -/
def hasPair (p q : Char → Bool) : List Char → Bool
  | c :: d :: rest => (p c && q d) || hasPair p q (d :: rest)
  | _ => false

/-- A blank that may be written as it is. -/
def isSpace (c : Char) : Bool := c == ' '

/-- Whether a text starts or ends with a space or a break. -/
def hasOuterGap (cs : List Char) : Bool :=
  let outer := fun (c : Option Char) => c.any fun c => isSpace c || breaksLine c
  outer cs.head? || outer cs.getLast?

/-- Whether a text can only be written with escapes. -/
def needsEscapes (cs : List Char) : Bool :=
  hasPair isSpace breaksLine cs || cs.any fun c => !isPrintable c

/-! ## Quotes -/

/-- A new line at a column, unless the text is at the start of a line already. -/
def indentation (column : Nat) : List Char := List.replicate column ' '

/-- The characters of a text in single quotes.  A line after a break starts at a column. -/
def singleQuotedChars (column : Nat) (afterBreak : Bool) : List Char → List Char
  | [] => if afterBreak then indentation column else []
  | c :: rest =>
    if breaksLine c then
      (if c == '\n' && !afterBreak then ['\n'] else []) ++ c :: singleQuotedChars column true rest
    else
      (if afterBreak && c != ' ' then indentation column else []) ++
        (if c == '\x27' then [c, c] else [c]) ++
        singleQuotedChars column (afterBreak && c == ' ') rest

/-- The digit of a number below sixteen. -/
def hexDigit (n : Nat) : Char :=
  (Nat.digitChar n).toUpper

/-- The last digits of a number in base sixteen, so many of them. -/
def hexDigits (n : Nat) : Nat → List Char
  | 0 => []
  | count + 1 => hexDigits (n / 16) count ++ [hexDigit (n % 16)]

/-- A character after a backslash. -/
def escapeChars (c : Char) : List Char :=
  let n := c.toNat
  if n == 0x00 then ['0']
  else if n == 0x07 then ['a']
  else if n == 0x08 then ['b']
  else if n == 0x09 then ['t']
  else if n == 0x0A then ['n']
  else if n == 0x0B then ['v']
  else if n == 0x0C then ['f']
  else if n == 0x0D then ['r']
  else if n == 0x1B then ['e']
  else if c == '"' || c == '\\' then [c]
  else if n == 0x85 then ['N']
  else if n == 0xA0 then ['_']
  else if n == 0x2028 then ['L']
  else if n == 0x2029 then ['P']
  else if n ≤ 0xFF then 'x' :: hexDigits n 2
  else if n ≤ 0xFFFF then 'u' :: hexDigits n 4
  else 'U' :: hexDigits n 8

/-- A character inside double quotes. -/
def doubleQuotedChar (c : Char) : List Char :=
  if !isPrintable c || breaksLine c || c == '"' || c == '\\' then '\\' :: escapeChars c else [c]

/-! ## Literal blocks -/

/-- The lines of a literal block at a column. -/
def literalLines (column : Nat) (atStart : Bool) : List Char → List Char
  | [] => []
  | c :: rest =>
    if breaksLine c then c :: literalLines column true rest
    else (if atStart then indentation column else []) ++ c :: literalLines column false rest

/-- The marks after the bar of a literal block: the indentation where the text starts with a gap,
    and what becomes of the breaks at its end. -/
def literalHints (cs : List Char) : List Char :=
  (if cs.head?.any fun c => isSpace c || breaksLine c then ['2'] else []) ++
  match cs.reverse with
  | [] => ['-']
  | [c] => if breaksLine c then ['+'] else ['-']
  | c :: d :: _ =>
    if !breaksLine c then ['-'] else if breaksLine d then ['+'] else []

/-- A literal block whose lines start at a column. -/
def literalChars (column : Nat) (cs : List Char) : List Char :=
  '|' :: (literalHints cs ++ '\n' :: literalLines column true cs)

/-! ## Scalars -/

/-- Whether a text would be read as something else than a text where scalars have types, or is
    made of digits. -/
def looksTyped (cs : List Char) : Bool :=
  hasLeadingZero cs ||
  match typed? cs with
  | some (.text _) => false
  | _ => true

/-- Whether a text can be a plain scalar. -/
def canBePlain (cs : List Char) : Bool :=
  !(hasOuterGap cs || cs.any breaksLine || needsEscapes cs || hasIndicators cs)

/-- Whether a text can stand in single quotes. -/
def canBeSingleQuoted (cs : List Char) : Bool :=
  !(hasPair breaksLine isSpace cs || needsEscapes cs)

/-- Whether a text can be a literal block. -/
def canBeLiteral (cs : List Char) : Bool :=
  !(cs.getLast? == some ' ' || needsEscapes cs)

/-- A text in double quotes. -/
def doubleQuotes (cs : List Char) : List Char :=
  '"' :: (cs.flatMap doubleQuotedChar ++ ['"'])

/-- A text in quotes, single ones if they will do. -/
def quotes (column : Nat) (cs : List Char) : List Char :=
  if canBeSingleQuoted cs then '\x27' :: (singleQuotedChars column false cs ++ ['\x27'])
  else doubleQuotes cs

/-- A text; its later lines start at a column. -/
def textChars (column : Nat) (cs : List Char) : List Char :=
  if cs.contains '\n' then
    if canBeLiteral cs then literalChars column cs else doubleQuotes cs
  else if !looksTyped cs && canBePlain cs then cs
  else quotes column cs

/-- A line break, unless the text ends with one. -/
def endLine (cs : List Char) : List Char :=
  if cs.getLast?.any isBreak then cs else cs ++ ['\n']

/-! ## Blocks -/

mutual

/-- What stands after the colon of a field of a mapping at a column, up to the end of its lines. -/
def valueChars (column : Nat) : Value → List Char
  | .list [] => " []\n".toList
  | .list (v :: rest) => '\n' :: itemsChars column (v :: rest)
  | .object [] => " {}\n".toList
  | .object (f :: rest) => '\n' :: (indentation (column + 2) ++ fieldsChars (column + 2) (f :: rest))
  | .null => " null\n".toList
  | .bool true => " true\n".toList
  | .bool false => " false\n".toList
  | .int n => ' ' :: (intChars n ++ ['\n'])
  | .real x => ' ' :: (numberLayout.chars x ++ ['\n'])
  | .text s => ' ' :: endLine (textChars (column + 2) s.toList)
  | .unreadable => " null\n".toList

/-- What stands after the dash of an item of a list at a column. -/
def itemChars (column : Nat) : Value → List Char
  | .list [] => " []\n".toList
  | .list (v :: rest) => ' ' :: nestedChars (column + 2) (v :: rest)
  | .object [] => " {}\n".toList
  | .object (f :: rest) => ' ' :: fieldsChars (column + 2) (f :: rest)
  | .null => " null\n".toList
  | .bool true => " true\n".toList
  | .bool false => " false\n".toList
  | .int n => ' ' :: (intChars n ++ ['\n'])
  | .real x => ' ' :: (numberLayout.chars x ++ ['\n'])
  | .text s => ' ' :: endLine (textChars (column + 2) s.toList)
  | .unreadable => " null\n".toList

/-- The items of a list at a column. -/
def itemsChars (column : Nat) : List Value → List Char
  | [] => []
  | v :: rest => indentation column ++ '-' :: (itemChars column v ++ itemsChars column rest)

/-- The items of a list at a column, the first one on the line it starts in. -/
def nestedChars (column : Nat) : List Value → List Char
  | [] => []
  | v :: rest => '-' :: (itemChars column v ++ itemsChars column rest)

/-- The fields of a mapping at a column, the first one on the line it starts in. -/
def fieldsChars (column : Nat) : List (String × Value) → List Char
  | [] => []
  | [(k, v)] => k.toList ++ ':' :: valueChars column v
  | (k, v) :: rest =>
    k.toList ++ ':' :: (valueChars column v ++ indentation column ++ fieldsChars column rest)

end

/-- A value as a document. -/
def write (v : Value) : String :=
  String.ofList (match v with
    | .object (f :: rest) => fieldsChars 0 (f :: rest)
    | v => (itemChars 0 v).drop 1)

end BuildingControl.Document.Yaml
