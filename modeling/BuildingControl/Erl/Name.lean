/-
  BuildingControl.Erl.Name

  Names of variables, programs and subroutines: a letter, then letters, digits
  and underscores, and no word that the language reserves.  Two names are the
  same to the simulation when they agree up to the case of letters; `Name.key`
  is what they share.
-/
import BuildingControl.Text.Blank
import BuildingControl.Text.Letter
import BuildingControl.Erl.Fault

namespace BuildingControl.Erl

/-! ## Words -/

/-- The words that no variable may be named after. -/
def reservedWords : List String :=
  ["SET", "IF", "ELSEIF", "ELSE", "ENDIF", "WHILE", "ENDWHILE", "RUN", "RETURN", "NULL"]

/-- Whether a word is reserved, in any spelling. -/
def isReserved (word : String) : Bool :=
  reservedWords.any fun r => r == Text.asciiUpper word

/-- The characters names are made of. -/
def isNameChar (c : Char) : Bool :=
  c.isAlphanum || c == '_'

/-- Why a text is no name, if it is none. -/
def nameReason? (text : String) : Option NameReason :=
  match text.toList with
  | [] => some .empty
  | c :: cs =>
    if !c.isAlpha then some .start
    else if !(c :: cs).all isNameChar then some .character
    else if isReserved text then some .reserved
    else none

/-! ## Names -/

/-- A name that the language accepts. -/
structure Name where
  text : String
  valid : nameReason? text = none
  deriving DecidableEq

/-- The name with this spelling; it is never repaired. -/
def Name.ofText? (text : String) : Except Fault Name :=
  match h : nameReason? text with
  | none => .ok ⟨text, h⟩
  | some reason => .error (.invalidName text reason)

/-- What the spellings of one name have in common. -/
def Name.key (n : Name) : String :=
  Text.asciiUpper n.text

/-! ## Names made of other text -/

/-- A character of a name, or an underscore in its place. -/
def nameCharOr (c : Char) : Char :=
  if isNameChar c then c else '_'

/-- The characters with a letter in front. -/
def letterFirst : List Char → List Char
  | [] => ['a', '_']
  | c :: cs => if c.isAlpha then c :: cs else 'a' :: '_' :: c :: cs

/-- The spelling of a name that stands for a text of the building: blanks at the ends are
    dropped, foreign characters become underscores, a letter is put first, and a reserved word
    gets an underscore. -/
def sanitize (raw : String) : String :=
  let text := String.ofList (letterFirst ((Text.trimChars raw.toList).map nameCharOr))
  if isReserved text then text ++ "_" else text

end BuildingControl.Erl
