/-
  BuildingControl.Document.Yaml.Char

  The characters of YAML text: breaks, blanks, and the ones that may stand in a
  text at all.
-/

namespace BuildingControl.Document.Yaml

/-- The line and paragraph separators of Unicode, which break lines and are kept as they are. -/
def isSeparator (c : Char) : Bool :=
  c == '\u2028' || c == '\u2029'

/-- A character that ends a line, after `unifyBreaks`. -/
def isBreak (c : Char) : Bool :=
  c == '\n' || isSeparator c

/-- A blank inside a line. -/
def isBlank (c : Char) : Bool :=
  c == ' ' || c == '\t'

/-- A blank or a break. -/
def isGap (c : Char) : Bool :=
  isBlank c || isBreak c

/-- Whether nothing of a word is left: a blank, a break or the end follows. -/
def endsWord : List Char → Bool
  | [] => true
  | c :: _ => isGap c

/-- The characters of anchors and of the handles of tags. -/
def isHandleChar (c : Char) : Bool :=
  c.isAlphanum || c == '_' || c == '-'

/-- The byte order mark. -/
def byteOrderMark : Char := '\uFEFF'

/-- The characters that a text may hold. -/
def isAllowed (c : Char) : Bool :=
  let n := c.toNat
  n == 0x09 || n == 0x0A || n == 0x0D || (0x20 ≤ n && n ≤ 0x7E) || n == 0x85
    || (0xA0 ≤ n && n ≤ 0xD7FF) || (0xE000 ≤ n && n ≤ 0xFFFD) || 0x10000 ≤ n

/-- The text with every carriage return, alone or before a line feed, and every next-line mark
    as a line feed. -/
def unifyBreaks : List Char → List Char
  | [] => []
  | '\r' :: '\n' :: rest => '\n' :: unifyBreaks rest
  | c :: rest => (if c == '\r' || c == '\u0085' then '\n' else c) :: unifyBreaks rest

/-- A mark between documents: three dashes or dots, and then the end of a word. -/
def isMark (mark : Char) : List Char → Bool
  | a :: b :: c :: rest => a == mark && b == mark && c == mark && endsWord rest
  | _ => false

/-- Any mark between documents. -/
def isDocumentMark (cs : List Char) : Bool :=
  isMark '-' cs || isMark '.' cs

/-- A place in a text. -/
structure Position where
  index : Nat
  line : Nat
  column : Nat

/-- The place after a character. -/
def Position.step (p : Position) (c : Char) : Position :=
  if isBreak c then ⟨p.index + 1, p.line + 1, 0⟩ else ⟨p.index + 1, p.line, p.column + 1⟩

/-- The place after characters. -/
def Position.after (p : Position) (cs : List Char) : Position :=
  cs.foldl Position.step p

end BuildingControl.Document.Yaml
