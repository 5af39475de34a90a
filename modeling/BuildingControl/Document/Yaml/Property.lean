/-
  BuildingControl.Document.Yaml.Property

  What may stand in front of a node (anchors and tags), and the directives in
  front of a document.
-/
import BuildingControl.Document.Yaml.Token

namespace BuildingControl.Document.Yaml

/-! ## Anchors -/

/-- The characters that may follow the name of an anchor. -/
def endsAnchor : List Char → Bool
  | [] => true
  | c :: _ => isGap c || ['?', ':', ',', ']', '\x7d', '%', '@', '\x60'].contains c

/-- The name of an anchor or alias and what follows it. -/
def anchorName? (cs : List Char) : Option (List Char × List Char) :=
  match cs.span isHandleChar with
  | ([], _) => none
  | (name, rest) => if endsAnchor rest then some (name, rest) else none

/-! ## Tags -/

/-- The characters of a tag; commas and brackets only where it stands in angle brackets. -/
def isTagChar (verbatim : Bool) (c : Char) : Bool :=
  isHandleChar c ||
    [';', '/', '?', ':', '@', '&', '=', '+', '$', '.', '!', '~', '*', '\x27', '(', ')'].contains c ||
    (verbatim && [',', '[', ']'].contains c)

/-- The number of bytes of a character whose first byte is given. -/
def utf8Width? (first : Nat) : Option Nat :=
  if first < 0x80 then some 1
  else if first / 0x20 = 0x06 then some 2
  else if first / 0x10 = 0x0E then some 3
  else if first / 0x08 = 0x1E then some 4
  else none

/-- The escaped bytes at the front: a percent sign and two digits for each. -/
def escapedBytes : List Char → List Nat × List Char
  | '%' :: a :: b :: rest =>
    match Json.hexNumber? [a, b] with
    | some n => (n :: (escapedBytes rest).1, (escapedBytes rest).2)
    | none => ([], '%' :: a :: b :: rest)
  | cs => ([], cs)

/-- The character that escaped bytes stand for, and how many characters of text it takes. -/
def escapedChar? (cs : List Char) : Option (Char × Nat) :=
  let bytes := (escapedBytes cs).1
  match bytes with
  | [] => none
  | first :: _ =>
    match utf8Width? first with
    | none => none
    | some width =>
      if bytes.length < width then none
      else
        match String.fromUTF8? (ByteArray.mk ((bytes.take width).map Nat.toUInt8).toArray) with
        | some s => s.toList.head?.map fun c => (c, 3 * width)
        | none => none

/-- The characters of a tag at the front and what follows them. -/
def tagChars (verbatim : Bool) (done : List Char) (cs : List Char) :
    Nat → Option (List Char × List Char)
  | 0 => none
  | fuel + 1 =>
    match cs with
    | [] => some (done.reverse, [])
    | c :: rest =>
      if c == '%' then
        match escapedChar? cs with
        | some (ch, n) => tagChars verbatim (ch :: done) (cs.drop n) fuel
        | none => none
      else if isTagChar verbatim c then tagChars verbatim (c :: done) rest fuel
      else some (done.reverse, cs)

/-- The characters of a tag at the front, after those in `start`; there has to be one. -/
def tagText? (verbatim : Bool) (start : List Char) (cs : List Char) :
    Option (List Char × List Char) := do
  let (text, rest) ← tagChars verbatim [] cs (cs.length + 1)
  if start.isEmpty && text.isEmpty then none
  return (start.drop 1 ++ text, rest)

/-- A handle at the front, with its exclamation marks, and what follows it. -/
def tagHandle (cs : List Char) : List Char × List Char :=
  let (name, rest) := cs.span isHandleChar
  match rest with
  | '!' :: more => ('!' :: name ++ ['!'], more)
  | _ => ('!' :: name, rest)

/-- Whether a handle is closed by a second exclamation mark. -/
def isClosedHandle (handle : List Char) : Bool :=
  2 ≤ handle.length && handle.getLast? == some '!'

/-- A tag after its exclamation mark, and what follows it. -/
def tag? (flow : Bool) (cs : List Char) : Option (Token × List Char) := do
  let (token, rest) ← match cs with
    | '<' :: body => do
      let (suffix, rest) ← tagText? true [] body
      match rest with
      | '>' :: rest => some (Token.tag [] suffix, rest)
      | _ => none
    | _ =>
      let (handle, body) := tagHandle cs
      if isClosedHandle handle then do
        let (suffix, rest) ← tagText? false [] body
        some (Token.tag handle suffix, rest)
      else do
        let (suffix, rest) ← tagText? false handle body
        some (if suffix.isEmpty then Token.tag [] ['!'] else Token.tag ['!'] suffix, rest)
  if endsWord rest || (flow && rest.head? == some ',') then some (token, rest) else none

/-! ## Directives -/

/-- A number of at most nine digits at the front. -/
def versionNumber? (cs : List Char) : Option (Nat × List Char) :=
  match cs.span Char.isDigit with
  | ([], _) => none
  | (digits, rest) =>
    if 9 < digits.length then none else some (Decimal.digitsValue digits, rest)

/-- A version after the name of its directive. -/
def version? (cs : List Char) : Option (Token × List Char) := do
  let (major, rest) ← versionNumber? (cs.dropWhile isBlank)
  match rest with
  | '.' :: rest => do
    let (minor, rest) ← versionNumber? rest
    some (.version major minor, rest)
  | _ => none

/-- A handle and what it stands for, after the name of their directive. -/
def handle? (cs : List Char) : Option (Token × List Char) :=
  match cs.dropWhile isBlank with
  | '!' :: body =>
    let (handle, rest) := tagHandle body
    if handle != ['!'] && !isClosedHandle handle then none
    else
      match rest with
      | [] => none
      | c :: _ =>
        if !isBlank c then none
        else do
          let (start, rest) ← tagText? true [] (rest.dropWhile isBlank)
          if endsWord rest then some (.handle handle start, rest) else none
  | _ => none

/-- A directive after its percent sign, up to the end of its line. -/
def directive? (cs : List Char) : Option (Token × List Char) := do
  let (name, rest) := cs.span isHandleChar
  let (token, rest) ←
    if !endsWord rest then none
    else if name == "YAML".toList then version? rest
    else if name == "TAG".toList then handle? rest
    else none
  let rest ← lineEnd? rest
  return (token, rest)

end BuildingControl.Document.Yaml
