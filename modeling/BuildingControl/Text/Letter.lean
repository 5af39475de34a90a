/-
  BuildingControl.Text.Letter

  Spellings that differ in the case of ASCII letters only.  Program names and
  keywords are compared this way; other alphabets keep their case.
-/

namespace BuildingControl.Text

/-- The text with its ASCII letters in upper case. -/
def asciiUpper (s : String) : String :=
  String.ofList (s.toList.map Char.toUpper)

/-- The text with its ASCII letters in lower case. -/
def asciiLower (s : String) : String :=
  String.ofList (s.toList.map Char.toLower)

/-- Equality that overlooks the case of ASCII letters. -/
def sameLetters (a b : String) : Bool :=
  asciiUpper a == asciiUpper b

@[simp] theorem toList_asciiUpper (s : String) : (asciiUpper s).toList = s.toList.map Char.toUpper :=
  String.toList_ofList

@[simp] theorem sameLetters_iff {a b : String} :
    sameLetters a b = true ↔ asciiUpper a = asciiUpper b := by
  simp [sameLetters]

end BuildingControl.Text
