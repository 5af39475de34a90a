/-
  BuildingControl.Document.Source

  What the decoders of this library ask of a part of a document, whatever it is
  written in.  A record is an object with known fields: others are skipped, and
  a known field may come once only.  A tagged object names its kind in one of
  its fields; the rest of it is read as `Content`, whose scalars have types of
  their own.
-/
import BuildingControl.Decimal.Reading
import BuildingControl.Document.Value

namespace BuildingControl.Document

/-! ## Content -/

/-- The key of a field of a content: a name, the position of a field, or neither. -/
inductive Key
  | name (s : String)
  | position (n : Nat)
  | other
  deriving DecidableEq

/-- The inside of a tagged object. -/
inductive Content
  | null
  | bool (b : Bool)
  | int (n : Int)
  | real (x : Float)
  | text (s : String)
  | list (items : List Content)
  | object (fields : List (Key × Content))

/-! ## What is asked -/

/-- A kind of document part that decoders can read. -/
class Source (ν : Type) where
  /-- A text. -/
  text? : ν → Option String
  /-- A whole number of 32 bits. -/
  count? : ν → Option Nat
  /-- A number. -/
  real? : ν → Option Float
  /-- A truth value. -/
  flag? : ν → Option Bool
  /-- The elements of a list. -/
  items? : ν → Option (List ν)
  /-- The word of a choice. -/
  word? : ν → Option String
  /-- Whether a value is left out although its field is there, if that can be told. -/
  absent? : ν → Option Bool
  /-- The known fields of a record that are there. -/
  record? : List String → ν → Option (List (String × ν))

/-- A kind of document part that may hold tagged objects. -/
class TaggedSource (ν : Type) extends Source ν where
  /-- The tag in a field, and the rest of the object. -/
  tagged? : String → ν → Option (String × Content)

/-- The bound of whole numbers. -/
def countLimit : Nat := Nat.pow 2 32

/-- A whole number in the range of counts. -/
def countOfInt? (n : Int) : Option Nat :=
  if 0 ≤ n ∧ n < countLimit then some n.toNat else none

/-- The float nearest to a whole number. -/
def realOfInt (n : Int) : Float :=
  Decimal.withSign (n < 0) (Decimal.nearest n.natAbs 0)

/-! ## Fields -/

/-- The fields with known names; none of them may come twice. -/
def knownFields? (known : List String) : List (String × ν) → Option (List (String × ν))
  | [] => some []
  | (name, v) :: rest =>
    if name ∈ known then
      if rest.any fun f => f.1 == name then none
      else (knownFields? known rest).map ((name, v) :: ·)
    else knownFields? known rest

/-- The fields of a record that is written as a list, by position. -/
def fieldsByPosition? (known : List String) (items : List ν) : Option (List (String × ν)) :=
  if items.length ≤ known.length then some (known.zip items) else none

/-- The name a key stands for among known fields: none if the field is not known; a key that is
    neither name nor position is refused. -/
def Key.field? (known : List String) : Key → Option (Option String)
  | .name s => some (some s)
  | .position n => some known[n]?
  | .other => none

/-- The value of a field that has to be there. -/
def required (fields : List (String × ν)) (name : String) (decode : ν → Option α) : Option α :=
  match fields.lookup name with
  | some v => decode v
  | none => none

/-- The value of a field, or another value if the field is not there. -/
def fallback (fields : List (String × ν)) (name : String) (default : α) (decode : ν → Option α) :
    Option α :=
  match fields.lookup name with
  | some v => decode v
  | none => some default

/-- The value of a field that may be left out. -/
def optional [Source ν] (fields : List (String × ν)) (name : String) (decode : ν → Option α) :
    Option (Option α) :=
  match fields.lookup name with
  | some v =>
    match Source.absent? v with
    | none => none
    | some true => some none
    | some false => (decode v).map some
  | none => some none

/-- A list whose elements are decoded alike. -/
def listOf [Source ν] (decode : ν → Option α) (v : ν) : Option (List α) :=
  (Source.items? v).bind fun items => items.mapM decode

/-! ## Contents -/

/-- The fields of a content with their names. -/
def namedFields? (known : List String) :
    List (Key × Content) → Option (List (String × Content))
  | [] => some []
  | (key, v) :: rest =>
    match key.field? known with
    | none => none
    | some none => namedFields? known rest
    | some (some name) => (namedFields? known rest).map ((name, v) :: ·)

instance : Source Content where
  text?
    | .text s => some s
    | _ => none
  count?
    | .int n => countOfInt? n
    | _ => none
  real?
    | .int n => some (realOfInt n)
    | .real x => some x
    | _ => none
  flag?
    | .bool b => some b
    | _ => none
  items?
    | .list items => some items
    | _ => none
  word?
    | .text s => some s
    | .object [(.name s, .null)] => some s
    | .object [(.name s, .object [])] => some s
    | _ => none
  absent?
    | .null => some true
    | _ => some false
  record? known
    | .object fields => (namedFields? known fields).bind (knownFields? known)
    | .list items => fieldsByPosition? known items
    | _ => none

/-! ## Values -/

mutual

/-- A value as a content; a part that cannot be read spoils it. -/
def contentOf? : Value → Option Content
  | .null => some .null
  | .bool b => some (.bool b)
  | .int n => some (.int n)
  | .real x => some (.real x)
  | .text s => some (.text s)
  | .list items => (contentsOf? items).map .list
  | .object fields => (fieldContentsOf? fields).map .object
  | .unreadable => none

/-- Values as contents. -/
def contentsOf? : List Value → Option (List Content)
  | [] => some []
  | v :: rest =>
    match contentOf? v, contentsOf? rest with
    | some c, some cs => some (c :: cs)
    | _, _ => none

/-- Fields as fields of a content. -/
def fieldContentsOf? : List (String × Value) → Option (List (Key × Content))
  | [] => some []
  | (name, v) :: rest =>
    match contentOf? v, fieldContentsOf? rest with
    | some c, some cs => some ((.name name, c) :: cs)
    | _, _ => none

end

/-- The value of a tag that comes once among the fields. -/
def tagOf? (tag : String) (fields : List (String × ν)) : Option ν :=
  match fields.filter fun f => f.1 == tag with
  | [f] => some f.2
  | _ => none

instance : TaggedSource Value where
  text?
    | .text s => some s
    | _ => none
  count?
    | .int n => countOfInt? n
    | _ => none
  real?
    | .int n => some (realOfInt n)
    | .real x => some x
    | _ => none
  flag?
    | .bool b => some b
    | _ => none
  items?
    | .list items => some items
    | _ => none
  word?
    | .text s => some s
    | .object [(s, .null)] => some s
    | _ => none
  absent?
    | .null => some true
    | _ => some false
  record? known
    | .object fields => knownFields? known fields
    | .list items => fieldsByPosition? known items
    | _ => none
  tagged? tag
    | .object fields =>
      match tagOf? tag fields, fieldContentsOf? (fields.filter fun f => f.1 != tag) with
      | some (.text s), some rest => some (s, .object rest)
      | _, _ => none
    | .list (.text s :: rest) => (contentsOf? rest).map fun cs => (s, .list cs)
    | _ => none

end BuildingControl.Document
