/-
  BuildingControl.Document.Yaml.Lexer

  YAML text as tokens.  What makes the text hard to cut is that a key is known
  only by the colon after it: whenever a key could start, its place is kept, and
  the `key` token is put there once the colon is met.  Such a key lies on one
  line and within 1024 characters.
-/
import BuildingControl.Document.Yaml.Property

namespace BuildingControl.Document.Yaml

/-! ## States -/

/-- A place where a key may have started. -/
structure PossibleKey where
  /-- The number of tokens before it. -/
  tokens : Nat
  position : Position
  /-- Whether nothing but a key can stand there. -/
  required : Bool

/-- The state of the lexer. -/
structure Lexer where
  rest : List Char
  position : Position
  /-- The tokens so far, the last one first. -/
  tokens : List Token
  /-- The column of the innermost block; -1 outside of all blocks. -/
  indent : Int
  /-- The columns of the blocks around it. -/
  outer : List Int
  /-- How many brackets are open. -/
  flow : Nat
  /-- Whether a key may start here. -/
  keyAllowed : Bool
  /-- The possible key of the innermost brackets. -/
  possible : Option PossibleKey
  /-- The possible keys of the brackets around them. -/
  outerPossible : List (Option PossibleKey)

namespace Lexer

/-- The state at the start of a text. -/
def start (cs : List Char) : Lexer :=
  ⟨cs, ⟨0, 0, 0⟩, [], -1, [], 0, true, none, []⟩

/-- One more token. -/
def emit (s : Lexer) (t : Token) : Lexer :=
  { s with tokens := t :: s.tokens }

/-- A token put behind the first `n` tokens. -/
def insert (s : Lexer) (n : Nat) (t : Token) : Lexer :=
  let later := s.tokens.length - n
  { s with tokens := s.tokens.take later ++ t :: s.tokens.drop later }

/-- The state after the next `n` characters, none of which is a break. -/
def skip (s : Lexer) (n : Nat) : Lexer :=
  { s with
    rest := s.rest.drop n
    position := ⟨s.position.index + n, s.position.line, s.position.column + n⟩ }

/-- Whether the next character stands outside of all brackets. -/
def inBlock (s : Lexer) : Bool := s.flow == 0

/-! ## Blocks -/

/-- Opens a block at a column, unless one is open there; its first token goes behind the first
    `n` tokens. -/
def openBlock (s : Lexer) (column : Nat) (n : Nat) (t : Token) : Lexer :=
  if s.inBlock && s.indent < column then
    let s := s.insert n t
    { s with indent := column, outer := s.indent :: s.outer }
  else s

/-- Closes every block to the right of a column. -/
def closeBlocksFrom (s : Lexer) (column : Int) : List Int → Lexer
  | [] => s
  | outer :: rest =>
    if column < s.indent then
      closeBlocksFrom { s.emit .blockEnd with indent := outer, outer := rest } column rest
    else s

/-- Closes every block to the right of a column; inside brackets no block is closed. -/
def closeBlocks (s : Lexer) (column : Int) : Lexer :=
  if s.inBlock then s.closeBlocksFrom column s.outer else s

/-! ## Possible keys -/

/-- Whether a key that started at a place can no longer get its colon. -/
def isStale (s : Lexer) (k : PossibleKey) : Bool :=
  k.position.line < s.position.line || k.position.index + 1024 < s.position.index

/-- A possible key, unless it is stale; a stale key that is required is refused. -/
def refresh? (s : Lexer) : Option PossibleKey → Option (Option PossibleKey)
  | none => some none
  | some k => if s.isStale k then (if k.required then none else some none) else some (some k)

/-- The state without stale keys. -/
def dropStaleKeys? (s : Lexer) : Option Lexer := do
  let outer ← s.outerPossible.mapM s.refresh?
  let possible ← s.refresh? s.possible
  return { s with possible := possible, outerPossible := outer }

/-- The state without its possible key, which must not be required. -/
def dropKey? (s : Lexer) : Option Lexer :=
  match s.possible with
  | some k => if k.required then none else some { s with possible := none }
  | none => some s

/-- Keeps this place as one where a key may start, if one may. -/
def keepKey? (s : Lexer) : Option Lexer :=
  if s.keyAllowed then
    let required := s.inBlock && s.indent == (s.position.column : Int)
    s.dropKey?.map fun s =>
      { s with possible := some ⟨s.tokens.length, s.position, required⟩ }
  else some s

/-! ## Blanks and comments -/

/-- The text after blanks, breaks and comments: whether a key may start there, its place, and
    itself.  Tabs do not indent. -/
def toToken (flow comment keyAllowed : Bool) (p : Position) :
    List Char → Bool × Position × List Char
  | [] => (keyAllowed, p, [])
  | c :: rest =>
    -- on a new line of a block a key may start
    if isBreak c then toToken flow false (if flow then keyAllowed else true) (p.step c) rest
    else if comment then toToken flow true keyAllowed (p.step c) rest
    else if c == ' ' || (c == '\t' && (flow || !keyAllowed))
        || (c == byteOrderMark && p.column == 0) then
      toToken flow false keyAllowed (p.step c) rest
    else if c == '#' then toToken flow true keyAllowed (p.step c) rest
    else (keyAllowed, p, c :: rest)

/-- The state at the next token. -/
def atToken (s : Lexer) : Lexer :=
  let (allowed, p, rest) := toToken (!s.inBlock) false s.keyAllowed s.position s.rest
  { s with keyAllowed := allowed, position := p, rest := rest }

/-! ## Tokens -/

/-- A mark between documents. -/
def documentMark? (s : Lexer) (t : Token) : Option Lexer := do
  let s ← (s.closeBlocks (-1)).dropKey?
  return ({ s with keyAllowed := false }.skip 3).emit t

/-- A directive. -/
def directive? (s : Lexer) : Option Lexer := do
  let s ← (s.closeBlocks (-1)).dropKey?
  let (t, rest) ← Yaml.directive? (s.rest.drop 1)
  return ({ s with keyAllowed := false }.skip (s.rest.length - rest.length)).emit t

/-- An opening bracket. -/
def openFlow? (s : Lexer) (t : Token) : Option Lexer := do
  let s ← s.keepKey?
  return ({ s with
    flow := s.flow + 1, possible := none, outerPossible := s.possible :: s.outerPossible
    keyAllowed := true }.skip 1).emit t

/-- A closing bracket. -/
def closeFlow? (s : Lexer) (t : Token) : Option Lexer := do
  let s ← s.dropKey?
  let s := match s.outerPossible with
    | possible :: outer =>
      { s with flow := s.flow - 1, possible := possible, outerPossible := outer }
    | [] => s
  return ({ s with keyAllowed := false }.skip 1).emit t

/-- A comma between brackets. -/
def flowEntry? (s : Lexer) : Option Lexer := do
  let s ← s.dropKey?
  return ({ s with keyAllowed := true }.skip 1).emit .flowEntry

/-- The dash of a block sequence. -/
def blockEntry? (s : Lexer) : Option Lexer := do
  if s.inBlock && !s.keyAllowed then none
  let s ← (s.openBlock s.position.column s.tokens.length .blockSequenceStart).dropKey?
  return ({ s with keyAllowed := true }.skip 1).emit .blockEntry

/-- The question mark of a key. -/
def key? (s : Lexer) : Option Lexer := do
  if s.inBlock && !s.keyAllowed then none
  let s ← (s.openBlock s.position.column s.tokens.length .blockMappingStart).dropKey?
  return ({ s with keyAllowed := s.inBlock }.skip 1).emit .key

/-- The colon of a value.  After a possible key it makes that a key; else it belongs to a key with
    a question mark, or to none. -/
def value? (s : Lexer) : Option Lexer :=
  match s.possible with
  | some k =>
    -- its token goes back to where the key began, and so does the mapping it may open
    let s := (s.insert k.tokens .key).openBlock k.position.column k.tokens .blockMappingStart
    some (({ s with possible := none, keyAllowed := false }.skip 1).emit .value)
  | none =>
    if s.inBlock && !s.keyAllowed then none
    else
      let s := s.openBlock s.position.column s.tokens.length .blockMappingStart
      some (({ s with keyAllowed := s.inBlock }.skip 1).emit .value)

/-- An anchor or an alias. -/
def anchor? (s : Lexer) (token : List Char → Token) : Option Lexer := do
  let s ← s.keepKey?
  let (name, _) ← anchorName? (s.rest.drop 1)
  return ({ s with keyAllowed := false }.skip (1 + name.length)).emit (token name)

/-- A tag. -/
def tag? (s : Lexer) : Option Lexer := do
  let s ← s.keepKey?
  let (t, rest) ← Yaml.tag? (!s.inBlock) (s.rest.drop 1)
  return ({ s with keyAllowed := false }.skip (s.rest.length - rest.length)).emit t

/-- The state after a scalar. -/
def afterScalar (s : Lexer) (style : Style) (keyAllowed : Bool) (r : Scanned) : Lexer :=
  { s with rest := r.rest, position := r.position, keyAllowed := keyAllowed }.emit
    (.scalar style r.text)

/-- A block scalar. -/
def blockScalar? (s : Lexer) (folded : Bool) : Option Lexer := do
  let s ← s.dropKey?
  let s' := s.skip 1
  let r ← blockScalar folded s.indent s'.position s'.rest
  return s.afterScalar (if folded then .folded else .literal) true r

/-- A scalar in quotes. -/
def quotedScalar? (s : Lexer)
    (read : List Char → Gap → Position → List Char → Option Scanned) : Option Lexer := do
  let s ← s.keepKey?
  let s' := s.skip 1
  let r ← read [] .none s'.position s'.rest
  return s.afterScalar .quoted false r

/-- A plain scalar. -/
def plainScalar? (s : Lexer) : Option Lexer := do
  let s ← s.keepKey?
  let (r, broken) ← plain (!s.inBlock) (s.indent + 1).toNat [] .none s.position s.rest
  return s.afterScalar .plain broken r

/-- The characters that start no plain scalar, whatever follows. -/
def isIndicator (c : Char) : Bool :=
  ['-', '?', ':', ',', '[', ']', '\x7b', '\x7d', '#', '&', '*', '!', '|', '>', '\x27', '"', '%',
   '@', '\x60'].contains c

/-- Whether a plain scalar starts with this character before this text. -/
def startsPlain (s : Lexer) (c : Char) (rest : List Char) : Bool :=
  !(isGap c || isIndicator c)
    || (c == '-' && !(rest.head?.any isBlank))
    || (s.inBlock && (c == '?' || c == ':') && !endsWord rest)

/-- The token that starts with this character. -/
def token? (s : Lexer) (c : Char) (rest : List Char) : Option Lexer :=
  if s.position.column == 0 && c == '%' then s.directive?
  else if s.position.column == 0 && isMark '-' s.rest then s.documentMark? .documentStart
  else if s.position.column == 0 && isMark '.' s.rest then s.documentMark? .documentEnd
  else if c == '[' then s.openFlow? .flowSequenceStart
  else if c == '\x7b' then s.openFlow? .flowMappingStart
  else if c == ']' then s.closeFlow? .flowSequenceEnd
  else if c == '\x7d' then s.closeFlow? .flowMappingEnd
  else if c == ',' then s.flowEntry?
  else if c == '-' && endsWord rest then s.blockEntry?
  else if c == '?' && (!s.inBlock || endsWord rest) then s.key?
  else if c == ':' && (!s.inBlock || endsWord rest) then s.value?
  else if c == '*' then s.anchor? .alias
  else if c == '&' then s.anchor? .anchor
  else if c == '!' then s.tag?
  else if c == '|' && s.inBlock then s.blockScalar? false
  else if c == '>' && s.inBlock then s.blockScalar? true
  else if c == '\x27' then s.quotedScalar? singleQuoted
  else if c == '"' then s.quotedScalar? doubleQuoted
  else if s.startsPlain c rest then s.plainScalar?
  else none

/-- The tokens once the text is at its end. -/
def finish? (s : Lexer) : Option (List Token) :=
  ((s.closeBlocks (-1)).dropKey?).map fun s => s.tokens.reverse

/-- The tokens of the rest of the text. -/
def run (s : Lexer) : Nat → Option (List Token)
  | 0 => none
  | fuel + 1 => do
    let s ← s.atToken.dropStaleKeys?
    -- what starts further left ends the blocks to its right
    let s := s.closeBlocks s.position.column
    match s.rest with
    | [] => s.finish?
    | c :: rest => (← s.token? c rest).run fuel

end Lexer

/-- The tokens of a text; every step takes a character. -/
def tokens? (cs : List Char) : Option (List Token) :=
  (Lexer.start cs).run (cs.length + 1)

end BuildingControl.Document.Yaml
