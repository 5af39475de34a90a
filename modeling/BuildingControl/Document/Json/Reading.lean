/-
  BuildingControl.Document.Json.Reading

  JSON text as a value.  The grammar is strict: no comment, no trailing comma,
  no leading zero, nothing after the value.  A part that is well formed and
  stands for no value (half a surrogate pair, a number that no float is near to,
  a container nested too deeply) becomes `Value.unreadable`, so that a reader
  may still skip it.
-/
import BuildingControl.Decimal.Reading
import BuildingControl.Document.Value

namespace BuildingControl.Document.Json

open Decimal

/-! ## Blanks -/

/-- The blanks of JSON. -/
def isSpace (c : Char) : Bool :=
  c == ' ' || c == '\n' || c == '\t' || c == '\r'

/-- The text after its blanks. -/
def skip (cs : List Char) : List Char :=
  cs.dropWhile isSpace

/-! ## Strings -/

/-- A piece of a string: a character, or the number of a `\u` escape. -/
inductive Piece
  | char (c : Char)
  | code (n : Nat)

/-- The character after a backslash. -/
def unescape? : Char → Option Char
  | '"' => some '"'
  | '\\' => some '\\'
  | '/' => some '/'
  | 'b' => some (Char.ofNat 8)
  | 'f' => some (Char.ofNat 12)
  | 'n' => some '\n'
  | 'r' => some '\r'
  | 't' => some '\t'
  | _ => none

/-- The value of a hexadecimal digit. -/
def hexValue? (c : Char) : Option Nat :=
  if '0' ≤ c ∧ c ≤ '9' then some (c.toNat - '0'.toNat)
  else if 'a' ≤ c ∧ c ≤ 'f' then some (c.toNat - 'a'.toNat + 10)
  else if 'A' ≤ c ∧ c ≤ 'F' then some (c.toNat - 'A'.toNat + 10)
  else none

/-- The value of hexadecimal digits. -/
def hexNumber? (cs : List Char) : Option Nat :=
  cs.foldlM (fun n c => (hexValue? c).map (16 * n + ·)) 0

/-- The pieces of a string up to its closing quote, and what follows it. -/
def pieces : List Char → Option (List Piece × List Char)
  | [] => none
  | '"' :: rest => some ([], rest)
  | '\\' :: 'u' :: a :: b :: c :: d :: rest => do
    let n ← hexNumber? [a, b, c, d]
    let (more, tail) ← pieces rest
    return (.code n :: more, tail)
  | '\\' :: e :: rest => do
    let c ← unescape? e
    let (more, tail) ← pieces rest
    return (.char c :: more, tail)
  | c :: rest =>
    if c.toNat < 32 then none
    else do
      let (more, tail) ← pieces rest
      return (.char c :: more, tail)

/-- The first half of a surrogate pair. -/
def isLead (n : Nat) : Bool := 0xD800 ≤ n && n ≤ 0xDBFF

/-- The second half of a surrogate pair. -/
def isTrail (n : Nat) : Bool := 0xDC00 ≤ n && n ≤ 0xDFFF

/-- The character of a surrogate pair. -/
def pairChar (lead trail : Nat) : Char :=
  Char.ofNat (0x10000 + (lead - 0xD800) * 0x400 + (trail - 0xDC00))

/-- The characters of a string, unless half a surrogate pair stands alone. -/
def joinPieces : List Piece → Option (List Char)
  | [] => some []
  | .char c :: rest => (joinPieces rest).map (c :: ·)
  | .code n :: .code m :: rest =>
    if isLead n && isTrail m then (joinPieces rest).map (pairChar n m :: ·)
    else if isLead n || isTrail n then none
    else (joinPieces (.code m :: rest)).map (Char.ofNat n :: ·)
  | .code n :: rest =>
    if isLead n || isTrail n then none else (joinPieces rest).map (Char.ofNat n :: ·)

/-- The string after an opening quote, if its characters exist, and what follows it. -/
def string (cs : List Char) : Option (Option String × List Char) :=
  (pieces cs).map fun p => ((joinPieces p.1).map String.ofList, p.2)

/-! ## Numbers -/

/-- The fraction at the front, with its point. -/
def fraction : List Char → Option (Option (List Char) × List Char)
  | '.' :: rest =>
    let (digits, tail) := spanDigits rest
    if digits.isEmpty then none else some (some digits, tail)
  | cs => some (none, cs)

/-- The exponent at the front, with its letter. -/
def exponent : List Char → Option (Option Int × List Char)
  | [] => some (none, [])
  | c :: rest =>
    if c = 'e' ∨ c = 'E' then
      let (negative, body) := spanSign rest
      let (digits, tail) := spanDigits body
      if digits.isEmpty then none
      else
        let size : Int := digitsValue digits
        some (some (if negative then -size else size), tail)
    else some (none, c :: rest)

/-- A float as a value; beyond the range of floats there is none. -/
def realValue (x : Float) : Value :=
  if x.isFinite then .real x else .unreadable

/-- A whole number as a value: an integer of 64 bits, with or without sign, else a float.  Minus
    zero is a float. -/
def wholeValue (negative : Bool) (n : Nat) : Value :=
  if negative then
    if n = 0 then .real (-0.0)
    else if n ≤ Nat.pow 2 63 then .int (-(n : Int))
    else realValue (-(nearest n 0))
  else if n < Nat.pow 2 64 then .int n
  else realValue (nearest n 0)

/-- The digits in front of the point: a zero alone, or no zero in front. -/
def isWhole : List Char → Bool
  | [] => false
  | ['0'] => true
  | c :: _ => c != '0'

/-- A number at the front and what follows it. -/
def number (cs : List Char) : Option (Value × List Char) := do
  let (negative, body) := match cs with
    | '-' :: rest => (true, rest)
    | _ => (false, cs)
  let (whole, rest) := spanDigits body
  if !isWhole whole then none
  let (fraction?, rest) ← fraction rest
  let (exponent?, rest) ← exponent rest
  if fraction?.isNone && exponent?.isNone then
    return (wholeValue negative (digitsValue whole), rest)
  let x := (Literal.mk whole (fraction?.getD []) (exponent?.getD 0)).value
  return (realValue (withSign negative x), rest)

/-! ## Values -/

/-- How deep containers may be nested. -/
def maxDepth : Nat := 127

/-- A container at a depth. -/
def container (depth : Nat) (v : Value) : Value :=
  if depth ≤ maxDepth then v else .unreadable

/-- The object of these fields; a key without characters spoils it. -/
def objectValue (fields : List (Option String × Value)) : Value :=
  match fields.mapM fun f => f.1.map fun k => (k, f.2) with
  | some fields => .object fields
  | none => .unreadable

/-- A word at the front and what follows it. -/
def word (w : String) (v : Value) (cs : List Char) : Option (Value × List Char) :=
  if w.toList.isPrefixOf cs then some (v, cs.drop w.length) else none

mutual

/-- A value at the front and what follows it; `depth` is that of the container a value may be. -/
def value (depth : Nat) (cs : List Char) : Nat → Option (Value × List Char)
  | 0 => none
  | fuel + 1 =>
    match skip cs with
    | '[' :: rest =>
      match skip rest with
      | ']' :: tail => some (container depth (.list []), tail)
      | _ => (items (depth + 1) rest fuel).map fun r => (container depth (.list r.1), r.2)
    | '\x7b' :: rest =>
      match skip rest with
      | '\x7d' :: tail => some (container depth (.object []), tail)
      | _ => (members (depth + 1) rest fuel).map fun r => (container depth (objectValue r.1), r.2)
    | '"' :: rest => (string rest).map fun r =>
      (match r.1 with
        | some s => .text s
        | none => .unreadable, r.2)
    | 'n' :: rest => word "null" .null ('n' :: rest)
    | 't' :: rest => word "true" (.bool true) ('t' :: rest)
    | 'f' :: rest => word "false" (.bool false) ('f' :: rest)
    | cs => number cs

/-- The elements of a list, at least one, up to the bracket after them. -/
def items (depth : Nat) (cs : List Char) : Nat → Option (List Value × List Char)
  | 0 => none
  | fuel + 1 =>
    match value depth cs fuel with
    | none => none
    | some (v, rest) =>
      match skip rest with
      | ']' :: tail => some ([v], tail)
      | ',' :: tail => (items depth tail fuel).map fun r => (v :: r.1, r.2)
      | _ => none

/-- The fields of an object, at least one, up to the brace after them. -/
def members (depth : Nat) (cs : List Char) :
    Nat → Option (List (Option String × Value) × List Char)
  | 0 => none
  | fuel + 1 =>
    match skip cs with
    | '"' :: rest =>
      match string rest with
      | none => none
      | some (key, rest) =>
        match skip rest with
        | ':' :: rest =>
          match value depth rest fuel with
          | none => none
          | some (v, rest) =>
            match skip rest with
            | '\x7d' :: tail => some ([(key, v)], tail)
            | ',' :: tail => (members depth tail fuel).map fun r => ((key, v) :: r.1, r.2)
            | _ => none
        | _ => none
    | _ => none

end

/-- Enough steps for a text: every second step takes a character. -/
def steps (cs : List Char) : Nat := 2 * cs.length + 2

/-- The value that a text stands for. -/
def read? (text : String) : Option Value :=
  match value 1 text.toList (steps text.toList) with
  | some (v, rest) => if (skip rest).isEmpty then some v else none
  | none => none

end BuildingControl.Document.Json
