/-
  BuildingControl.Document.Yaml.Node

  The tree of a YAML document, and how tokens make one.  Scalars are not typed
  yet: what a plain scalar means depends on what is asked for.
-/
import BuildingControl.Document.Yaml.Token

namespace BuildingControl.Document.Yaml

/-! ## Trees -/

/-- A part of a document, with its tag if it has one. -/
inductive Node
  | scalar (tag : Option (List Char)) (style : Style) (text : List Char)
  | sequence (tag : Option (List Char)) (items : List Node)
  | mapping (tag : Option (List Char)) (fields : List (Node × Node))
  /-- A node inside itself, or one that is nested too deeply.  It may be skipped, not used. -/
  | unusable

/-- The node of nothing at all. -/
def Node.empty : Node := .scalar none .plain []

/-- How deep collections may be nested. -/
def maxDepth : Nat := 128

/-! ## Anchors and tags -/

/-- What is known while a document is read. -/
structure Scope where
  /-- The handles of tags and what they stand for. -/
  handles : List (List Char × List Char)
  /-- The anchors so far, the last one first, with the numbers of their nodes. -/
  anchors : List (List Char × Nat)
  /-- The finished nodes with anchors. -/
  nodes : List (Nat × Node)

/-- The handles that need no directive. -/
def usualHandles : List (List Char × List Char) :=
  [(['!'], ['!']), (['!', '!'], "tag:yaml.org,2002:".toList)]

/-- The node that an alias stands for; a node that is not finished holds the alias. -/
def Scope.resolve? (e : Scope) (name : List Char) : Option Node :=
  (e.anchors.lookup name).map fun n => (e.nodes.lookup n).getD .unusable

/-- The scope after an anchor, and the number of its node. -/
def Scope.anchor (e : Scope) : Option (List Char) → Scope × Option Nat
  | none => (e, none)
  | some name =>
    let n := e.anchors.length
    ({ e with anchors := (name, n) :: e.anchors }, some n)

/-- The scope after a node with an anchor is finished. -/
def Scope.finish (e : Scope) (number : Option Nat) (node : Node) : Scope :=
  match number with
  | none => e
  | some n => { e with nodes := (n, node) :: e.nodes }

/-- What may stand in front of a node. -/
structure Properties where
  anchor : Option (List Char)
  tag : Option (List Char × List Char)

/-- An anchor and a tag, each at most once and in either order. -/
def properties : List Token → Properties × List Token
  | .anchor a :: .tag h s :: rest => (⟨some a, some (h, s)⟩, rest)
  | .anchor a :: rest => (⟨some a, none⟩, rest)
  | .tag h s :: .anchor a :: rest => (⟨some a, some (h, s)⟩, rest)
  | .tag h s :: rest => (⟨none, some (h, s)⟩, rest)
  | rest => (⟨none, none⟩, rest)

/-- The tag of a handle and a suffix; a handle has to be known. -/
def Scope.tag? (e : Scope) : Option (List Char × List Char) → Option (Option (List Char))
  | none => some none
  | some (handle, suffix) =>
    if handle.isEmpty then some (some suffix)
    else (e.handles.lookup handle).map fun start => some (start ++ suffix)

/-- The tag of a scalar: a lone exclamation mark is none. -/
def scalarTag (tag : Option (List Char)) : Option (List Char) :=
  if tag == some ['!'] then none else tag

/-! ## Tokens as trees -/

/-- A tree, the scope after it, and the tokens that follow it. -/
abbrev Parsed (α : Type) := Option (α × Scope × List Token)

/-- Whether a value is left out in a block mapping before these tokens. -/
def endsBlockValue : List Token → Bool
  | .key :: _ => true
  | .value :: _ => true
  | .blockEnd :: _ => true
  | _ => false

/-- Whether an entry is left out in a block sequence before these tokens. -/
def endsBlockEntry : List Token → Bool
  | .blockEntry :: _ => true
  | .blockEnd :: _ => true
  | _ => false

/-- Whether an entry is left out in a sequence without a block of its own. -/
def endsBareEntry : List Token → Bool
  | .blockEntry :: _ => true
  | ts => endsBlockValue ts

/-- Whether a key or a value is left out between brackets before these tokens. -/
def endsFlowValue (close : Token) : List Token → Bool
  | .value :: _ => true
  | .flowEntry :: _ => true
  | t :: _ => t == close
  | [] => false

/-- What a node starts with, after its properties. -/
inductive Start
  | scalar (style : Style) (text : List Char)
  | blockSequence
  | bareSequence
  | blockMapping
  | flowSequence
  | flowMapping
  | nothing

/-- What a node starts with, and the tokens after that.  `block` allows block collections, `bare`
    a sequence whose dashes stand at the column of the mapping around it. -/
def startOf (block bare : Bool) : List Token → Start × List Token
  | .scalar style text :: rest => (.scalar style text, rest)
  | .flowSequenceStart :: rest => (.flowSequence, rest)
  | .flowMappingStart :: rest => (.flowMapping, rest)
  | .blockSequenceStart :: rest =>
    if block then (.blockSequence, rest) else (.nothing, .blockSequenceStart :: rest)
  | .blockMappingStart :: rest =>
    if block then (.blockMapping, rest) else (.nothing, .blockMappingStart :: rest)
  | .blockEntry :: rest =>
    (if bare then .bareSequence else .nothing, .blockEntry :: rest)
  | ts => (.nothing, ts)

/-- A collection at a depth. -/
def collection (depth : Nat) (n : Node) : Node :=
  if depth ≤ maxDepth then n else .unusable

/-- A node that is finished. -/
def finished (number : Option Nat) (n : Node) (e : Scope) (rest : List Token) : Parsed Node :=
  some (n, e.finish number n, rest)

mutual

/-- A node; `depth` is the depth of the collection it may be. -/
def node (block bare : Bool) (depth : Nat) (e : Scope) (ts : List Token) : Nat → Parsed Node
  | 0 => none
  | fuel + 1 =>
    match ts with
    | .alias name :: rest => (e.resolve? name).map fun n => (n, e, rest)
    | _ =>
      let (props, rest) := properties ts
      match e.tag? props.tag with
      | none => none
      | some tag =>
        let (e, number) := e.anchor props.anchor
        match startOf block bare rest with
        | (.scalar style text, rest) => finished number (.scalar (scalarTag tag) style text) e rest
        | (.nothing, rest) =>
          if props.anchor.isSome || tag.isSome then
            finished number (.scalar tag .plain []) e rest
          else none
        | (.blockSequence, rest) =>
          match blockItems (depth + 1) e rest fuel with
          | some (items, e, rest) =>
            finished number (collection depth (.sequence tag items)) e rest
          | none => none
        | (.bareSequence, rest) =>
          match bareItems (depth + 1) e rest fuel with
          | some (items, e, rest) =>
            finished number (collection depth (.sequence tag items)) e rest
          | none => none
        | (.flowSequence, rest) =>
          match flowItems true (depth + 1) e rest fuel with
          | some (items, e, rest) =>
            finished number (collection depth (.sequence tag items)) e rest
          | none => none
        | (.blockMapping, rest) =>
          match blockFields (depth + 1) e rest fuel with
          | some (fields, e, rest) =>
            finished number (collection depth (.mapping tag fields)) e rest
          | none => none
        | (.flowMapping, rest) =>
          match flowFields true (depth + 1) e rest fuel with
          | some (fields, e, rest) =>
            finished number (collection depth (.mapping tag fields)) e rest
          | none => none
termination_by structural fuel => fuel

/-- The items of a block sequence, up to the end of its block. -/
def blockItems (depth : Nat) (e : Scope) (ts : List Token) : Nat → Parsed (List Node)
  | 0 => none
  | fuel + 1 =>
    match ts with
    | .blockEnd :: rest => some ([], e, rest)
    | .blockEntry :: rest =>
      match if endsBlockEntry rest then some (.empty, e, rest)
        else node true false depth e rest fuel with
      | none => none
      | some (n, e, rest) => (blockItems depth e rest fuel).map fun r => (n :: r.1, r.2)
    | _ => none
termination_by structural fuel => fuel

/-- The items of a sequence without a block of its own. -/
def bareItems (depth : Nat) (e : Scope) (ts : List Token) : Nat → Parsed (List Node)
  | 0 => none
  | fuel + 1 =>
    match ts with
    | .blockEntry :: rest =>
      match if endsBareEntry rest then some (.empty, e, rest)
        else node true false depth e rest fuel with
      | none => none
      | some (n, e, rest) => (bareItems depth e rest fuel).map fun r => (n :: r.1, r.2)
    | _ => some ([], e, ts)
termination_by structural fuel => fuel

/-- The value of a field of a block mapping. -/
def blockValue (depth : Nat) (e : Scope) (ts : List Token) : Nat → Parsed Node
  | 0 => none
  | fuel + 1 =>
    match ts with
    | .value :: rest =>
      if endsBlockValue rest then some (.empty, e, rest) else node true true depth e rest fuel
    | _ => some (.empty, e, ts)
termination_by structural fuel => fuel

/-- The fields of a block mapping, up to the end of its block. -/
def blockFields (depth : Nat) (e : Scope) (ts : List Token) : Nat → Parsed (List (Node × Node))
  | 0 => none
  | fuel + 1 =>
    match ts with
    | .blockEnd :: rest => some ([], e, rest)
    | .key :: rest =>
      match if endsBlockValue rest then some (.empty, e, rest)
        else node true true depth e rest fuel with
      | none => none
      | some (k, e, rest) =>
        match blockValue depth e rest fuel with
        | none => none
        | some (v, e, rest) => (blockFields depth e rest fuel).map fun r => ((k, v) :: r.1, r.2)
    | _ => none
termination_by structural fuel => fuel

/-- The value of a field between brackets that are closed by a token. -/
def flowValue (close : Token) (depth : Nat) (e : Scope) (ts : List Token) : Nat → Parsed Node
  | 0 => none
  | fuel + 1 =>
    match ts with
    | .value :: rest =>
      if rest.head? == some .flowEntry || rest.head? == some close then some (.empty, e, rest)
      else node false false depth e rest fuel
    | _ => some (.empty, e, ts)
termination_by structural fuel => fuel

/-- The field that an item of a flow sequence may be, after its `key` token. -/
def flowPair (depth : Nat) (e : Scope) (ts : List Token) : Nat → Parsed Node
  | 0 => none
  | fuel + 1 =>
    match if endsFlowValue .flowSequenceEnd ts then some (.empty, e, ts.drop 1)
      else node false false depth e ts fuel with
    | none => none
    | some (k, e, rest) =>
      (flowValue .flowSequenceEnd depth e rest fuel).map fun r => (.mapping none [(k, r.1)], r.2)
termination_by structural fuel => fuel

/-- The items of a flow sequence, up to its bracket. -/
def flowItems (first : Bool) (depth : Nat) (e : Scope) (ts : List Token) :
    Nat → Parsed (List Node)
  | 0 => none
  | fuel + 1 =>
    if ts.head? == some .flowSequenceEnd then some ([], e, ts.drop 1)
    else if !first && ts.head? != some .flowEntry then none
    else
      let ts := if first then ts else ts.drop 1
      match ts with
      | .flowSequenceEnd :: rest => some ([], e, rest)
      | .key :: rest =>
        match flowPair (depth + 1) e rest fuel with
        | none => none
        | some (n, e, rest) => (flowItems false depth e rest fuel).map fun r => (n :: r.1, r.2)
      | _ =>
        match node false false depth e ts fuel with
        | none => none
        | some (n, e, rest) => (flowItems false depth e rest fuel).map fun r => (n :: r.1, r.2)
termination_by structural fuel => fuel

/-- The fields of a flow mapping, up to its brace. -/
def flowFields (first : Bool) (depth : Nat) (e : Scope) (ts : List Token) :
    Nat → Parsed (List (Node × Node))
  | 0 => none
  | fuel + 1 =>
    if ts.head? == some .flowMappingEnd then some ([], e, ts.drop 1)
    else if !first && ts.head? != some .flowEntry then none
    else
      let ts := if first then ts else ts.drop 1
      match ts with
      | .flowMappingEnd :: rest => some ([], e, rest)
      | .key :: rest =>
        match if endsFlowValue .flowMappingEnd rest then some (.empty, e, rest)
          else node false false depth e rest fuel with
        | none => none
        | some (k, e, rest) =>
          match flowValue .flowMappingEnd depth e rest fuel with
          | none => none
          | some (v, e, rest) =>
            (flowFields false depth e rest fuel).map fun r => ((k, v) :: r.1, r.2)
      | _ =>
        match node false false depth e ts fuel with
        | none => none
        | some (k, e, rest) =>
          (flowFields false depth e rest fuel).map fun r => ((k, .empty) :: r.1, r.2)
termination_by structural fuel => fuel

end

/-! ## Documents -/

/-- The directives in front of a document: at most one version, 1.1 or 1.2, and handles that are
    all different. -/
def directives (version : Bool) (handles : List (List Char × List Char)) :
    List Token → Option (List (List Char × List Char) × List Token)
  | .version major minor :: rest =>
    if version || major != 1 || !(minor == 1 || minor == 2) then none
    else directives true handles rest
  | .handle h start :: rest =>
    if (handles.lookup h).isSome then none else directives version ((h, start) :: handles) rest
  | rest => some (handles, rest)

/-- Whether a document has no content before these tokens. -/
def endsDocument : List Token → Bool
  | [] => true
  | .version _ _ :: _ => true
  | .handle _ _ :: _ => true
  | .documentStart :: _ => true
  | .documentEnd :: _ => true
  | _ => false

/-- Enough steps for tokens. -/
def steps (ts : List Token) : Nat := 4 * ts.length + 4

/-- The node of a document without a mark in front. -/
def bareDocument? (ts : List Token) : Option (Node × List Token) :=
  (node true false 1 ⟨usualHandles, [], []⟩ ts (steps ts)).map fun r => (r.1, r.2.2)

/-- The node of a document with directives or a mark in front. -/
def markedDocument? (ts : List Token) : Option (Node × List Token) := do
  let (handles, rest) ← directives false [] ts
  match rest with
  | .documentStart :: rest =>
    if endsDocument rest then some (.empty, rest)
    else
      (node true false 1 ⟨handles ++ usualHandles, [], []⟩ rest (steps rest)).map fun r =>
        (r.1, r.2.2)
  | _ => none

/-- The only document of a text. -/
def document? (ts : List Token) : Option Node := do
  let (n, rest) ← match ts with
    | [] => none
    | .documentEnd :: _ => none
    | t :: rest =>
      if endsDocument (t :: rest) then markedDocument? (t :: rest) else bareDocument? (t :: rest)
  if rest.all (· == .documentEnd) then some n else none

end BuildingControl.Document.Yaml
