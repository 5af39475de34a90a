/-
  BuildingControl.Document.Yaml.Reading

  YAML text as a document.  A plain scalar is read as what is asked for: `1` is
  a text where a text is asked for and a number where a number is.  Only inside
  tagged objects it has a type of its own.
-/
import BuildingControl.Document.Source
import BuildingControl.Document.Yaml.Lexer
import BuildingControl.Document.Yaml.Node

namespace BuildingControl.Document.Yaml

/-! ## What plain scalars mean -/

/-- A written null. -/
def isNull (cs : List Char) : Bool :=
  ["null", "Null", "NULL", "~"].contains (String.ofList cs)

/-- A truth value. -/
def bool? (cs : List Char) : Option Bool :=
  match String.ofList cs with
  | "true" => some true
  | "True" => some true
  | "TRUE" => some true
  | "false" => some false
  | "False" => some false
  | "FALSE" => some false
  | _ => none

/-- Whether digits, after a sign, start with a zero that is not the number zero. -/
def hasLeadingZero (cs : List Char) : Bool :=
  let body := match cs with
    | '-' :: rest => rest
    | '+' :: rest => rest
    | _ => cs
  match body with
  | '0' :: d :: rest => (d :: rest).all Char.isDigit
  | _ => false

/-- The value of digits of a base, at least one. -/
def digits? (base : Nat) : List Char → Option Nat
  | [] => none
  | c :: cs => (c :: cs).foldlM (fun n d =>
      match Json.hexValue? d with
      | some v => if v < base then some (base * n + v) else none
      | none => none) 0

/-- The value of digits, whose base may be told in front. -/
def magnitude? : List Char → Option Nat
  | '0' :: 'x' :: rest => digits? 16 rest
  | '0' :: 'o' :: rest => digits? 8 rest
  | '0' :: 'b' :: rest => digits? 2 rest
  | cs => digits? 10 cs

/-- A whole number; digits with a zero in front are none. -/
def whole? (cs : List Char) : Option Int :=
  if hasLeadingZero cs then none
  else
    match cs with
    | '-' :: rest => (magnitude? rest).map fun n => -(n : Int)
    | '+' :: rest => (magnitude? rest).map Int.ofNat
    | _ => (magnitude? cs).map Int.ofNat

/-- A whole number without a minus in front. -/
def positiveWhole? (cs : List Char) : Option Int :=
  if cs.head? == some '-' then none else whole? cs

/-- A number without a plus in front. -/
def unsignedReal? (cs : List Char) : Option Float :=
  match String.ofList cs with
  | ".inf" => some (Float.ofBits 0x7FF0000000000000)
  | ".Inf" => some (Float.ofBits 0x7FF0000000000000)
  | ".INF" => some (Float.ofBits 0x7FF0000000000000)
  | _ =>
    match Decimal.readChars cs with
    | .ok x => if x.isFinite then some x else none
    | .error _ => none

/-- A number. -/
def real? (cs : List Char) : Option Float :=
  match String.ofList cs with
  | "-.inf" => some (Float.ofBits 0xFFF0000000000000)
  | "-.Inf" => some (Float.ofBits 0xFFF0000000000000)
  | "-.INF" => some (Float.ofBits 0xFFF0000000000000)
  | ".nan" => some (Float.ofBits 0x7FF8000000000000)
  | ".NaN" => some (Float.ofBits 0x7FF8000000000000)
  | ".NAN" => some (Float.ofBits 0x7FF8000000000000)
  | _ =>
    match cs with
    | '+' :: '+' :: _ => none
    | '+' :: '-' :: _ => none
    | '+' :: rest => unsignedReal? rest
    | _ => unsignedReal? cs

/-- A whole number that fits 64 bits, with or without sign. -/
def isWord (n : Int) : Bool :=
  -(Nat.pow 2 63 : Int) ≤ n && n < (Nat.pow 2 64 : Int)

/-- A whole number that fits 128 bits, with or without sign. -/
def isDoubleWord (n : Int) : Bool :=
  -(Nat.pow 2 127 : Int) ≤ n && n < (Nat.pow 2 128 : Int)

/-- A plain scalar that is neither a whole number nor shorter than that. -/
def realOrText (cs : List Char) : Content :=
  match if hasLeadingZero cs then none else real? cs with
  | some x => .real x
  | none => .text (String.ofList cs)

/-- The type that a plain scalar has of its own.  Whole numbers of more than 64 bits are refused,
    but those of more than 128 bits are floats. -/
def typed? (cs : List Char) : Option Content :=
  if cs.isEmpty || isNull cs then some .null
  else
    match bool? cs with
    | some b => some (.bool b)
    | none =>
      match whole? cs with
      | some n =>
        if isWord n then some (.int n)
        else if isDoubleWord n then none
        else some (realOrText cs)
      | none => some (realOrText cs)

/-! ## Tags -/

/-- The tags of scalars. -/
def scalarTagText (name : String) : List Char :=
  ("tag:yaml.org,2002:" ++ name).toList

/-- The name in a tag of the document's own. -/
def localTag? : Option (List Char) → Option (List Char)
  | some ('!' :: name) => some (if name.isEmpty then ['!'] else name)
  | _ => none

/-- Whether a scalar may be read as something other than a text: it is plain, or a literal block
    with the tag of what is asked for. -/
def isReadable (name : String) (tag : Option (List Char)) (style : Style) : Bool :=
  style == .plain || (style == .literal && tag == some (scalarTagText name))

/-- A scalar with a type of its own. -/
def scalarContent? (tag : Option (List Char)) (style : Style) (cs : List Char) :
    Option Content :=
  if (localTag? tag).isSome then none
  else
    match tag with
    | none => if style == .plain then typed? cs else some (.text (String.ofList cs))
    | some t =>
      if t == scalarTagText "bool" then (bool? cs).map .bool
      else if t == scalarTagText "int" then
        (whole? cs).bind fun n => if isWord n then some (.int n) else none
      else if t == scalarTagText "float" then (real? cs).map .real
      else if t == scalarTagText "null" then (if isNull cs then some .null else none)
      else some (.text (String.ofList cs))

/-! ## Nodes as contents -/

/-- A content as the key of a field. -/
def keyOf : Content → Key
  | .text s => .name s
  | .int n => if 0 ≤ n then .position n.toNat else .other
  | _ => .other

mutual

/-- A node whose scalars have types of their own. -/
def content? : Node → Option Content
  | .scalar tag style text => scalarContent? tag style text
  | .sequence tag items =>
    if (localTag? tag).isSome then none else (contents? items).map .list
  | .mapping tag fields =>
    if (localTag? tag).isSome then none else (fieldContents? fields).map .object
  | .unusable => none

/-- Nodes as contents. -/
def contents? : List Node → Option (List Content)
  | [] => some []
  | n :: rest =>
    match content? n, contents? rest with
    | some c, some cs => some (c :: cs)
    | _, _ => none

/-- Fields as fields of a content. -/
def fieldContents? : List (Node × Node) → Option (List (Key × Content))
  | [] => some []
  | (k, v) :: rest =>
    match content? k, content? v, fieldContents? rest with
    | some key, some c, some cs => some ((keyOf key, c) :: cs)
    | _, _, _ => none

end

/-! ## Nodes as sources -/

/-- The text of a scalar. -/
def Node.text? : Node → Option String
  | .scalar _ _ cs => some (String.ofList cs)
  | _ => none

/-- Whether there is nothing at all. -/
def Node.isNothing : Node → Bool
  | .scalar _ .plain [] => true
  | _ => false

/-- The fields of a mapping with their names; every key has to be a scalar. -/
def namedFields? : List (Node × Node) → Option (List (String × Node))
  | [] => some []
  | (k, v) :: rest =>
    match k.text?, namedFields? rest with
    | some name, some fields => some ((name, v) :: fields)
    | _, _ => none

/-- Whether the key of a field is a tag's. -/
def isTagKey (tag : String) (field : Node × Node) : Bool :=
  match content? field.1 with
  | some (.text s) => s == tag
  | _ => false

/-- The word of a choice: a scalar, or a tag on nothing. -/
def Node.word? : Node → Option String
  | .scalar tag style cs =>
    match localTag? tag with
    | some name =>
      if style == .plain && (cs.isEmpty || isNull cs) then some (String.ofList name) else none
    | none => some (String.ofList cs)
  | _ => none

/-- Whether a value is left out: nothing, or a plain null. -/
def Node.absent? : Node → Option Bool
  | .scalar tag .plain cs =>
    match tag with
    | none => some (cs.isEmpty || isNull cs)
    | some t =>
      if t == scalarTagText "null" then (if isNull cs then some true else none) else some false
  | _ => some false

instance : TaggedSource Node where
  text? := Node.text?
  count?
    | .scalar tag style cs =>
      if isReadable "int" tag style then (positiveWhole? cs).bind countOfInt? else none
    | _ => none
  real?
    | .scalar tag style cs => if isReadable "float" tag style then Yaml.real? cs else none
    | _ => none
  flag?
    | .scalar tag style cs => if isReadable "bool" tag style then bool? cs else none
    | _ => none
  items?
    | .sequence _ items => some items
    | n => if n.isNothing then some [] else none
  word? := Node.word?
  absent? := Node.absent?
  record? known
    | .mapping _ fields => (namedFields? fields).bind (knownFields? known)
    | n => if n.isNothing then some [] else none
  tagged? tag
    | .mapping t fields =>
      if (localTag? t).isSome then none
      else
        match fields.filter (isTagKey tag), fieldContents? (fields.filter (!isTagKey tag ·)) with
        | [(_, v)], some rest => v.text?.map fun s => (s, .object rest)
        | _, _ => none
    | .sequence t (first :: rest) =>
      if (localTag? t).isSome then none
      else
        match first.text?, contents? rest with
        | some s, some cs => some (s, .list cs)
        | _, _ => none
    | _ => none

/-! ## Texts -/

/-- The characters after a byte order mark. -/
def afterMark : List Char → List Char
  | [] => []
  | c :: rest => if c == byteOrderMark then rest else c :: rest

/-- The document in a text. -/
def read? (text : String) : Option Node :=
  let cs := afterMark text.toList
  if cs.all isAllowed then (tokens? (unifyBreaks cs)).bind document? else none

end BuildingControl.Document.Yaml
