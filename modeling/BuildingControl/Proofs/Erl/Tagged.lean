/-
  BuildingControl.Proofs.Erl.Tagged

  Generated names read backwards.  A name is made of a pattern and a number, which
  stands at the end or in the middle.  `tag` finds both again, whatever the case of
  the letters and whatever text of the building stands in front: the number at the
  end with the few characters before it, and else the first number with what stands
  around it.  Names with different tags are therefore different names.
-/
import BuildingControl.Proofs.Erl.Numbered
import BuildingControl.Proofs.Text.Letter
import Mathlib.Data.List.Nodup

namespace BuildingControl.Erl

open Decimal

/-! ## Reading -/

/-- How many characters before the last number tell the pattern. -/
def tailLength : Nat := 13

/-- The last characters of a text. -/
def tailOf (text : String) : String :=
  String.ofList (text.toList.reverse.take tailLength).reverse

/-- The number at the end and the last characters before it. -/
def readEnd (cs : List Char) : String × Nat :=
  (tailOf (String.ofList (cs.reverse.dropWhile Char.isDigit).reverse),
    digitsValue (cs.reverse.takeWhile Char.isDigit).reverse)

/-- The first number, or zero, with the text before it and the character behind it. -/
def readInside (cs : List Char) : String × Nat :=
  let back := cs.dropWhile fun c => !c.isDigit
  (String.ofList (cs.takeWhile (fun c => !c.isDigit) ++ (back.dropWhile Char.isDigit).take 1),
    digitsValue (back.takeWhile Char.isDigit))

/-- What a text in upper case reads as. -/
def reading (capitals : String) : String × Nat :=
  if endsOpen capitals then readInside capitals.toList else readEnd capitals.toList

/-- The pattern of a name and its number, whatever the case of its letters. -/
def tag (name : String) : String × Nat :=
  reading (Text.upper name)

/-- Names with different tags differ by more than the case of their letters. -/
theorem nodup_upper_of_tag {names : List String} (h : (names.map tag).Nodup) :
    (names.map Text.upper).Nodup := by
  have through : names.map tag = (names.map Text.upper).map reading := by
    rw [List.map_map]
    exact List.map_congr_left fun name _ => by rw [tag, Function.comp_apply]
  rw [through] at h
  exact List.Nodup.of_map reading h

/-! ## Texts in front -/

theorem endsOpen_append (front : String) {back : String} (h : back.toList ≠ []) :
    endsOpen (front ++ back) = endsOpen back := by
  obtain ⟨c, cs, last⟩ := List.exists_cons_of_ne_nil (List.reverse_ne_nil_iff.2 h)
  rw [endsOpen, endsOpen, String.toList_append, List.reverse_append, last]
  rfl

theorem tailOf_append (front : String) {back : String} (h : tailLength ≤ back.toList.length) :
    tailOf (front ++ back) = tailOf back := by
  have enough : tailLength ≤ back.toList.reverse.length := by rwa [List.length_reverse]
  rw [tailOf, tailOf, String.toList_append, List.reverse_append,
    List.take_append_of_le_length enough]

/-! ## Numbers in a name -/

/-- Whether a text is made of ASCII characters. -/
def isAscii (text : String) : Bool :=
  text.toList.all fun c => c.toNat < 128

theorem upper_of_isAscii {text : String} (h : isAscii text = true) :
    Text.upper text = Text.asciiUpper text :=
  Text.upper_of_ascii fun c hc => of_decide_eq_true (List.all_eq_true.1 h c hc)

/-- Whether a text has no digit in it. -/
def isDigitFree (text : String) : Bool :=
  text.toList.all fun c => !c.isDigit

theorem isDigitFree_iff {text : String} :
    isDigitFree text = true ↔ ∀ c ∈ text.toList, c.isDigit = false := by
  simp [isDigitFree]

theorem upper_number (n : Nat) : Text.upper (toString n) = toString n := by
  have ascii : isAscii (toString n) = true := by
    refine List.all_eq_true.2 fun c hc => decide_eq_true ?_
    rw [toList_toString] at hc
    have range : c.toNat ≤ 57 := (Char.isDigit_iff_toNat.1 (isDigit_of_mem_digitChars hc)).2
    omega
  have chars := toList_asciiUpper_numbered "" n
  rw [String.empty_append] at chars
  apply String.toList_injective
  rw [upper_of_isAscii ascii, chars, toList_toString]
  rfl

theorem readEnd_numbered {stem : String} (h : endsOpen stem = true) (n : Nat) :
    readEnd (stem ++ toString n).toList = (tailOf stem, n) := by
  have digit (c : Char) (hc : c ∈ (digitChars n).reverse) : c.isDigit = true :=
    isDigit_of_mem_digitChars (List.mem_reverse.1 hc)
  have stop (c : Char) (hc : stem.toList.reverse.head? = some c) : c.isDigit = false := by
    simpa [endsOpen, hc] using h
  have chars : (stem ++ toString n).toList.reverse =
      (digitChars n).reverse ++ stem.toList.reverse := by
    rw [String.toList_append, List.reverse_append, toList_toString]
  rw [readEnd, chars, Text.dropWhile_append_of_stops digit stop,
    Text.takeWhile_append_of_stops digit stop, List.reverse_reverse, List.reverse_reverse,
    digitsValue_digitChars, String.ofList_toList]

theorem readInside_numbered {front : List Char} (plain : ∀ c ∈ front, c.isDigit = false) {c : Char}
    (other : c.isDigit = false) (back : List Char) (n : Nat) :
    readInside (front ++ (digitChars n ++ c :: back)) = (String.ofList (front ++ [c]), n) := by
  have letters (d : Char) (hd : d ∈ front) : (!d.isDigit) = true := by rw [plain d hd]; rfl
  have digit (d : Char) (hd : d ∈ digitChars n) : d.isDigit = true := isDigit_of_mem_digitChars hd
  obtain ⟨d, ds, digits⟩ := List.exists_cons_of_ne_nil (digitChars_ne_nil n)
  have first : d.isDigit = true := digit d (by rw [digits]; exact List.mem_cons_self)
  -- the text in front ends where the digits begin
  have none : (digitChars n ++ c :: back).takeWhile (fun c => !c.isDigit) = [] := by
    simp [digits, first]
  have all : (digitChars n ++ c :: back).dropWhile (fun c => !c.isDigit) =
      digitChars n ++ c :: back := by
    simp [digits, first]
  rw [readInside, List.takeWhile_append_of_pos letters, List.dropWhile_append_of_pos letters, none,
    all]
  simp only [List.takeWhile_append_of_pos digit, List.dropWhile_append_of_pos digit]
  simp [other, digitsValue_digitChars]

/-! ## Tags of generated names -/

theorem tag_of_endsOpen {stem : String} (h : endsOpen (Text.upper stem) = true) (n : Nat) :
    tag (stem ++ toString n) = (tailOf (Text.upper stem), n) := by
  rw [tag, reading, Text.upper_append, upper_number]
  simp only [endsOpen_numbered, Bool.false_eq_true, if_false]
  exact readEnd_numbered h n

/-- A pattern with the number at the end. -/
theorem tag_numbered {stem pattern : String} (h : isAscii stem = true ∧
    endsOpen (Text.asciiUpper stem) = true ∧ tailOf (Text.asciiUpper stem) = pattern) (n : Nat) :
    tag (stem ++ toString n) = (pattern, n) := by
  obtain ⟨ascii, ends, rfl⟩ := h
  rw [← upper_of_isAscii ascii] at ends ⊢
  exact tag_of_endsOpen ends n

/-- A pattern behind a text of the building, with the number at the end. -/
theorem tag_hosted (host : String) {stem pattern : String} (h : isAscii stem = true ∧
    endsOpen (Text.asciiUpper stem) = true ∧
    tailLength ≤ (Text.asciiUpper stem).toList.length ∧
    tailOf (Text.asciiUpper stem) = pattern) (n : Nat) :
    tag (host ++ stem ++ toString n) = (pattern, n) := by
  obtain ⟨ascii, ends, long, rfl⟩ := h
  rw [← upper_of_isAscii ascii] at ends long ⊢
  have nonempty : (Text.upper stem).toList ≠ [] := by
    intro none
    rw [none] at long
    exact absurd long (by decide)
  have open_ : endsOpen (Text.upper (host ++ stem)) = true := by
    rw [Text.upper_append, endsOpen_append _ nonempty, ends]
  rw [tag_of_endsOpen open_, Text.upper_append, tailOf_append _ long]

/-- A pattern with the number in the middle, whatever follows the character behind it. -/
theorem tag_inside {front back pattern : String} {c : Char} (h : isAscii front = true ∧
      isDigitFree (Text.asciiUpper front) = true ∧ c.isDigit = false ∧
      String.ofList ((Text.asciiUpper front).toList ++ [c]) = pattern)
    (next : (Text.upper back).toList.head? = some c) (ends : endsOpen (Text.upper back) = true)
    (n : Nat) : tag (front ++ toString n ++ back) = (pattern, n) := by
  obtain ⟨ascii, plain, other, rfl⟩ := h
  rw [← upper_of_isAscii ascii] at plain ⊢
  have nonempty : (Text.upper back).toList ≠ [] := by
    intro none
    rw [none] at next
    cases next
  obtain ⟨rest, hrest⟩ := List.head?_eq_some_iff.1 next
  have inside : endsOpen (Text.upper (front ++ toString n ++ back)) = true := by
    rw [Text.upper_append, endsOpen_append _ nonempty, ends]
  rw [tag, reading, if_pos inside, Text.upper_append, Text.upper_append, upper_number,
    String.toList_append, String.toList_append, toList_toString, hrest, List.append_assoc,
    readInside_numbered (isDigitFree_iff.1 plain) other]

/-- A pattern with the number in the middle and nothing else that varies. -/
theorem tag_between {front back pattern : String} {c : Char} (h : isAscii back = true ∧
      (Text.asciiUpper back).toList.head? = some c ∧ endsOpen (Text.asciiUpper back) = true)
    (h' : isAscii front = true ∧ isDigitFree (Text.asciiUpper front) = true ∧
      c.isDigit = false ∧ String.ofList ((Text.asciiUpper front).toList ++ [c]) = pattern)
    (n : Nat) : tag (front ++ toString n ++ back) = (pattern, n) := by
  obtain ⟨ascii, next, ends⟩ := h
  rw [← upper_of_isAscii ascii] at next ends
  exact tag_inside h' next ends n

/-- A name without a number. -/
theorem tag_plain {name : String} {t : String × Nat}
    (h : isAscii name = true ∧ reading (Text.asciiUpper name) = t) : tag name = t := by
  rw [tag, upper_of_isAscii h.1, h.2]

end BuildingControl.Erl
