/-
  BuildingControl.Document.Json.Writing

  Values as JSON text: compact, without a blank, or laid out with two spaces a
  level.
-/
import BuildingControl.Decimal.Layout
import BuildingControl.Document.Value

namespace BuildingControl.Document.Json

open Decimal

/-! ## Scalars -/

/-- Numbers are positional from a hundred-thousandth to below ten to the sixteenth, keep `.0` on
    whole numbers and the sign of zero, and mark positive exponents. -/
def numberLayout : Layout where
  plainFrom := -4
  plainTo := some 16
  pointZero := true
  plusSign := true
  signedZero := true
  tie := .toEven
  nan := "null"
  infinity := "null"

/-- A number; one that is not finite has no number in JSON. -/
def realChars (x : Float) : List Char :=
  if x.isFinite then numberLayout.chars x else "null".toList

/-- A whole number. -/
def intChars (n : Int) : List Char :=
  if n < 0 then '-' :: digitChars n.natAbs else digitChars n.natAbs

/-- The digit of a number below sixteen. -/
def hexDigit (n : Nat) : Char :=
  Nat.digitChar n

/-- A character inside a string. -/
def escape (c : Char) : List Char :=
  if c == '"' then ['\\', '"']
  else if c == '\\' then ['\\', '\\']
  else if c == '\n' then ['\\', 'n']
  else if c == '\r' then ['\\', 'r']
  else if c == '\t' then ['\\', 't']
  else if c.toNat == 8 then ['\\', 'b']
  else if c.toNat == 12 then ['\\', 'f']
  else if c.toNat < 32 then ['\\', 'u', '0', '0', hexDigit (c.toNat / 16), hexDigit (c.toNat % 16)]
  else [c]

/-- A string with its quotes. -/
def textChars (s : String) : List Char :=
  '"' :: (s.toList.flatMap escape ++ ['"'])

/-! ## Compact text -/

mutual

/-- A value without a blank. -/
def compactChars : Value → List Char
  | .null => "null".toList
  | .bool true => "true".toList
  | .bool false => "false".toList
  | .int n => intChars n
  | .real x => realChars x
  | .text s => textChars s
  | .list items => '[' :: compactItems items
  | .object fields => '\x7b' :: compactFields fields
  | .unreadable => "null".toList

/-- The elements of a list and the bracket after them. -/
def compactItems : List Value → List Char
  | [] => [']']
  | [v] => compactChars v ++ [']']
  | v :: rest => compactChars v ++ ',' :: compactItems rest

/-- The fields of an object and the brace after them. -/
def compactFields : List (String × Value) → List Char
  | [] => ['\x7d']
  | [(k, v)] => textChars k ++ ':' :: compactChars v ++ ['\x7d']
  | (k, v) :: rest => textChars k ++ ':' :: compactChars v ++ ',' :: compactFields rest

end

/-- A value as compact text. -/
def compact (v : Value) : String :=
  String.ofList (compactChars v)

/-! ## Text in lines -/

/-- A new line at a depth. -/
def newLine (depth : Nat) : List Char :=
  '\n' :: List.replicate (2 * depth) ' '

mutual

/-- A value whose lines after the first start at a depth. -/
def prettyChars (depth : Nat) : Value → List Char
  | .null => "null".toList
  | .bool true => "true".toList
  | .bool false => "false".toList
  | .int n => intChars n
  | .real x => realChars x
  | .text s => textChars s
  | .list [] => ['[', ']']
  | .list (v :: rest) => '[' :: prettyItems depth (v :: rest)
  | .object [] => ['\x7b', '\x7d']
  | .object (f :: rest) => '\x7b' :: prettyFields depth (f :: rest)
  | .unreadable => "null".toList

/-- The elements of a list, each on a new line, and the bracket after them. -/
def prettyItems (depth : Nat) : List Value → List Char
  | [] => [']']
  | [v] => newLine (depth + 1) ++ prettyChars (depth + 1) v ++ newLine depth ++ [']']
  | v :: rest => newLine (depth + 1) ++ prettyChars (depth + 1) v ++ ',' :: prettyItems depth rest

/-- The fields of an object, each on a new line, and the brace after them. -/
def prettyFields (depth : Nat) : List (String × Value) → List Char
  | [] => ['\x7d']
  | [(k, v)] =>
    newLine (depth + 1) ++ textChars k ++ ':' :: ' ' :: prettyChars (depth + 1) v ++
      newLine depth ++ ['\x7d']
  | (k, v) :: rest =>
    newLine (depth + 1) ++ textChars k ++ ':' :: ' ' :: prettyChars (depth + 1) v ++
      ',' :: prettyFields depth rest

end

/-- A value as text in lines. -/
def pretty (v : Value) : String :=
  String.ofList (prettyChars 0 v)

end BuildingControl.Document.Json
