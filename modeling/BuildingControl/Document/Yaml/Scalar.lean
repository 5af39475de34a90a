/-
  BuildingControl.Document.Yaml.Scalar

  The five ways to write a scalar: plain, in single or double quotes, and as a
  literal or folded block.  Each reader takes the text after the character that
  starts the scalar and gives its value and what follows it.
-/
import BuildingControl.Document.Json.Reading
import BuildingControl.Document.Yaml.Gap

namespace BuildingControl.Document.Yaml

/-- How a scalar is written. -/
inductive Style
  | plain
  | quoted
  | literal
  | folded
  deriving DecidableEq

/-- A scalar's value, the place after it, and the text from there on. -/
structure Scanned where
  text : List Char
  position : Position
  rest : List Char

/-! ## Quoted scalars -/

/-- The rest of a scalar in single quotes, where a doubled quote is a quote.  `done` is what has
    been read, backwards. -/
def singleQuoted (done : List Char) (gap : Gap) (p : Position) : List Char → Option Scanned
  | [] => none
  | c :: rest =>
    if isGap c then singleQuoted done (gap.add c) (p.step c) rest
    else if p.column == 0 && isDocumentMark (c :: rest) then none
    else
      let done := gap.text.reverse ++ done
      if c == '\x27' then
        match rest with
        | '\x27' :: more => singleQuoted (c :: done) .none ((p.step c).step c) more
        | _ => some ⟨done.reverse, p.step c, rest⟩
      else singleQuoted (c :: done) .none (p.step c) rest

/-- The character after a backslash. -/
def unescape? (c : Char) : Option Char :=
  match c with
  | '0' => some (Char.ofNat 0)
  | 'a' => some (Char.ofNat 7)
  | 'b' => some (Char.ofNat 8)
  | 't' => some '\t'
  | '\t' => some '\t'
  | 'n' => some '\n'
  | 'v' => some (Char.ofNat 11)
  | 'f' => some (Char.ofNat 12)
  | 'r' => some '\r'
  | 'e' => some (Char.ofNat 27)
  | ' ' => some ' '
  | '"' => some '"'
  | '/' => some '/'
  | '\\' => some '\\'
  | 'N' => some '\u0085'
  | '_' => some '\u00A0'
  | 'L' => some '\u2028'
  | 'P' => some '\u2029'
  | _ => none

/-- The character with a hexadecimal number. -/
def hexChar? (digits : List Char) : Option Char :=
  match Json.hexNumber? digits with
  | some n => if (0xD800 ≤ n && n ≤ 0xDFFF) || 0x10FFFF < n then none else some (Char.ofNat n)
  | none => none

/-- The rest of a scalar in double quotes. -/
def doubleQuoted (done : List Char) (gap : Gap) (p : Position) : List Char → Option Scanned
  | [] => none
  | c :: rest =>
    if isGap c then doubleQuoted done (gap.add c) (p.step c) rest
    else if p.column == 0 && isDocumentMark (c :: rest) then none
    else
      let done := gap.text.reverse ++ done
      let p := p.step c
      if c == '"' then some ⟨done.reverse, p, rest⟩
      else if c == '\\' then
        match rest with
        | [] => none
        | 'x' :: a :: b :: more =>
          match hexChar? [a, b] with
          | some ch => doubleQuoted (ch :: done) .none (p.after ['x', a, b]) more
          | none => none
        | 'u' :: a :: b :: c :: d :: more =>
          match hexChar? [a, b, c, d] with
          | some ch => doubleQuoted (ch :: done) .none (p.after ['u', a, b, c, d]) more
          | none => none
        | 'U' :: a :: b :: c :: d :: e :: f :: g :: h :: more =>
          match hexChar? [a, b, c, d, e, f, g, h] with
          | some ch =>
            doubleQuoted (ch :: done) .none (p.after ['U', a, b, c, d, e, f, g, h]) more
          | none => none
        | e :: more =>
          if isBreak e then doubleQuoted done .escaped (p.step e) more
          else
            match unescape? e with
            | some ch => doubleQuoted (ch :: done) .none (p.step e) more
            | none => none
      else doubleQuoted (c :: done) .none p rest

/-! ## Plain scalars -/

/-- A character that ends a plain scalar inside brackets. -/
def isFlowIndicator (c : Char) : Bool :=
  c == ',' || c == '[' || c == ']' || c == '\x7b' || c == '\x7d'

/-- A colon that can neither be part of a plain scalar inside brackets nor end it. -/
def isStrayColon (c : Char) : List Char → Bool
  | [] => false
  | d :: _ => c == ':' && (isFlowIndicator d || d == '?')

/-- A plain scalar, from its first character on, and whether a break follows it.  Outside
    brackets its later lines start at column `indent` or further right. -/
def plain (flow : Bool) (indent : Nat) (done : List Char) (gap : Gap) (p : Position) :
    List Char → Option (Scanned × Bool)
  | [] => some (⟨done.reverse, p, []⟩, gap.broken)
  | c :: rest =>
    if isGap c then
      if gap.broken && p.column < indent && c == '\t' then none
      else plain flow indent done (gap.add c) (p.step c) rest
    else if gap.started && ((!flow && p.column < indent) || c == '#'
        || (p.column == 0 && isDocumentMark (c :: rest))) then
      some (⟨done.reverse, p, c :: rest⟩, gap.broken)
    else if flow && isStrayColon c rest then none
    else if (c == ':' && endsWord rest) || (flow && isFlowIndicator c) then
      some (⟨done.reverse, p, c :: rest⟩, gap.broken)
    else plain flow indent (c :: (gap.text.reverse ++ done)) .none (p.step c) rest

/-! ## Block scalars -/

/-- What becomes of the breaks after a block. -/
inductive Chomp
  | clip
  | strip
  | keep
  deriving DecidableEq

/-- The first line of a block: what becomes of its last breaks, and by how much it is indented,
    where that is said. -/
structure BlockHeader where
  chomp : Chomp
  increment : Option Nat

/-- A sign at the front. -/
def chompSign : List Char → Chomp × List Char
  | '+' :: rest => (.keep, rest)
  | '-' :: rest => (.strip, rest)
  | cs => (.clip, cs)

/-- A digit at the front, which is not zero. -/
def incrementDigit? : List Char → Option (Option Nat × List Char)
  | [] => some (none, [])
  | c :: rest =>
    if c.isDigit then
      if c == '0' then none else some (some (c.toNat - '0'.toNat), rest)
    else some (none, c :: rest)

/-- The sign and the digit of a block, in either order. -/
def blockHeader? (cs : List Char) : Option (BlockHeader × List Char) :=
  match chompSign cs with
  | (.clip, _) => do
    let (increment, rest) ← incrementDigit? cs
    let (chomp, rest) := if increment.isSome then chompSign rest else (.clip, rest)
    return (⟨chomp, increment⟩, rest)
  | (chomp, rest) => do
    let (increment, rest) ← incrementDigit? rest
    return (⟨chomp, increment⟩, rest)

/-- The text from the end of the line on, if only blanks and a comment are in front of it. -/
def lineEnd? (cs : List Char) : Option (List Char) :=
  match cs.dropWhile isBlank with
  | [] => some []
  | c :: rest =>
    if c == '#' then some (rest.dropWhile fun d => !isBreak d)
    else if isBreak c then some (c :: rest)
    else none

/-- A block under way. -/
structure Block where
  /-- The column its lines start in; zero if it is not known yet. -/
  indent : Nat
  /-- The widest run of blanks that started an empty line. -/
  widest : Nat
  /-- Whether a line is being read, rather than the blanks in front of one. -/
  inLine : Bool
  /-- What has been read, backwards. -/
  done : List Char
  /-- The break after the last line. -/
  first : List Char
  /-- The breaks after that one. -/
  later : List Char
  /-- Whether the last line started with a blank. -/
  indented : Bool

/-- The block at the start of a line with this first character.  A break between two lines of a
    folded block becomes a blank, unless one of them starts with a blank. -/
def Block.startLine (b : Block) (folded : Bool) (indent : Nat) (c : Char) : Block :=
  let joined :=
    if folded && b.first == ['\n'] && !b.indented && !isBlank c then
      (if b.later.isEmpty then [' '] else [])
    else b.first
  { b with
    indent := indent, inLine := true, first := [], later := [], indented := isBlank c
    done := c :: ((joined ++ b.later).reverse ++ b.done) }

/-- The lines of a block.  `least` is the column they start in at least. -/
def blockLines (folded : Bool) (least : Nat) (b : Block) (p : Position) :
    List Char → Option (Block × Position × List Char)
  | [] => some (b, p, [])
  | c :: rest =>
    if b.inLine then
      if isBreak c then
        blockLines folded least { b with inLine := false, first := [c] } (p.step c) rest
      else blockLines folded least { b with done := c :: b.done } (p.step c) rest
    else
      let early := b.indent == 0 || p.column < b.indent
      if early && c == ' ' then
        blockLines folded least { b with widest := max b.widest (p.column + 1) } (p.step c) rest
      else if early && c == '\t' then none
      else if isBreak c then
        blockLines folded least { b with later := b.later ++ [c] } (p.step c) rest
      else
        let indent := if b.indent == 0 then max (max b.widest least) 1 else b.indent
        if p.column == indent then
          blockLines folded least (b.startLine folded indent c) (p.step c) rest
        else some ({ b with indent := indent }, p, c :: rest)

/-- What a block stands for. -/
def Block.text (b : Block) : Chomp → List Char
  | .strip => b.done.reverse
  | .clip => b.done.reverse ++ b.first
  | .keep => b.done.reverse ++ b.first ++ b.later

/-- A block scalar after its `|` or `>`, inside a block at column `outer`. -/
def blockScalar (folded : Bool) (outer : Int) (p : Position) (cs : List Char) : Option Scanned := do
  let (header, rest) ← blockHeader? cs
  let rest ← lineEnd? rest
  let p := p.after (cs.take (cs.length - rest.length))
  let (p, rest) := match rest with
    | [] => (p, [])
    | c :: more => (p.step c, more)
  let least := (outer + 1).toNat
  let indent := match header.increment with
    | some n => (max outer 0).toNat + n
    | none => 0
  let (block, p, rest) ← blockLines folded least ⟨indent, 0, false, [], [], [], false⟩ p rest
  return ⟨block.text header.chomp, p, rest⟩

end BuildingControl.Document.Yaml
