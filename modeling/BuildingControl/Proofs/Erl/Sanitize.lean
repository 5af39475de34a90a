/-
  BuildingControl.Proofs.Erl.Sanitize

  Names made of other text.  Whatever the text is, `sanitize` makes a name of it
  (`nameReason?_sanitize`); what is a name already stays as it is
  (`sanitize_of_name`), so doing it twice changes nothing.  Two texts may become
  one name.  Texts that agree up to the case of letters become names that agree up
  to the case of letters (`asciiUpper_sanitize`), which is what keeps a reference
  together with the object it refers to when both are renamed on their own.
-/
import BuildingControl.Proofs.Erl.Token

namespace BuildingControl.Erl

/-! ## Capitals -/

theorem isAlpha_toUpper (c : Char) : c.toUpper.isAlpha = c.isAlpha :=
  Text.toUpper_of_letters (f := Char.isAlpha) (by decide) c

theorem isNameChar_toUpper (c : Char) : isNameChar c.toUpper = isNameChar c :=
  Text.toUpper_of_letters (by decide) c

theorem isBlank_toUpper (c : Char) : Text.isBlank c.toUpper = Text.isBlank c :=
  Text.toUpper_of_letters (by decide) c

/-! ## Names and words -/

/-- A name is a word that is not reserved. -/
theorem nameReason?_eq_none_iff {text : String} :
    nameReason? text = none ↔ isWord text.toList = true ∧ isReserved text = false := by
  unfold nameReason?
  cases h : text.toList with
  | nil => simp [isWord]
  | cons c cs =>
    cases alpha : c.isAlpha with
    | false => simp [isWord, alpha]
    | true =>
      have first : isNameChar c = true := by simp [isNameChar, Char.isAlphanum, alpha]
      cases rest : cs.all isNameChar <;> simp [isWord, alpha, first, rest]

theorem isNameChar_of_isWord {cs : List Char} (h : isWord cs = true) :
    ∀ c ∈ cs, isNameChar c = true := by
  cases cs with
  | nil => nofun
  | cons c cs =>
    simp only [isWord, Bool.and_eq_true, List.all_eq_true] at h
    have first : isNameChar c = true := by simp [isNameChar, Char.isAlphanum, h.1]
    exact List.forall_mem_cons.2 ⟨first, h.2⟩

/-- An underscore at the end of a word belongs to the word. -/
theorem isWord_append_underscore {cs : List Char} (h : isWord cs = true) :
    isWord (cs ++ ['_']) = true := by
  cases cs with
  | nil => cases h
  | cons c cs =>
    simp only [isWord, Bool.and_eq_true] at h
    simp [isWord, h.1, h.2, isNameChar]

/-- No reserved word ends with an underscore. -/
theorem isReserved_append_underscore (text : String) : isReserved (text ++ "_") = false := by
  have ends : ∀ r ∈ reservedWords, r.toList.getLast? ≠ some '_' := by decide
  by_contra reserved
  rw [Bool.not_eq_false, isReserved, List.any_eq_true] at reserved
  obtain ⟨r, hr, same⟩ := reserved
  refine ends r hr ?_
  rw [beq_iff_eq.1 same, Text.toList_asciiUpper, String.toList_append, List.map_append]
  exact List.getLast?_concat

/-! ## Sanitizing -/

/-- The word that a text becomes, be it reserved or not. -/
def wordOf (raw : String) : String :=
  String.ofList (letterFirst ((Text.trimChars raw.toList).map nameCharOr))

theorem sanitize_eq (raw : String) :
    sanitize raw = if isReserved (wordOf raw) then wordOf raw ++ "_" else wordOf raw := rfl

theorem isNameChar_nameCharOr (c : Char) : isNameChar (nameCharOr c) = true := by
  unfold nameCharOr
  split
  · assumption
  · rfl

/-- Name characters with a letter in front are a word. -/
theorem isWord_letterFirst {cs : List Char} (h : ∀ c ∈ cs, isNameChar c = true) :
    isWord (letterFirst cs) = true := by
  cases cs with
  | nil => rfl
  | cons c cs =>
    rw [letterFirst]
    split
    · next alpha =>
      rw [isWord, alpha, Bool.true_and, List.all_eq_true]
      exact fun d hd => h d (List.mem_cons_of_mem c hd)
    · show ('a'.isAlpha && (isNameChar '_' && (c :: cs).all isNameChar)) = true
      rw [List.all_eq_true.2 h]
      rfl

theorem isWord_wordOf (raw : String) : isWord (wordOf raw).toList = true := by
  rw [wordOf, String.toList_ofList]
  refine isWord_letterFirst fun c hc => ?_
  obtain ⟨d, -, rfl⟩ := List.mem_map.1 hc
  exact isNameChar_nameCharOr d

/-- Whatever the text is, a name is made of it. -/
theorem nameReason?_sanitize (raw : String) : nameReason? (sanitize raw) = none := by
  have word := isWord_wordOf raw
  rw [nameReason?_eq_none_iff, sanitize_eq]
  split
  · next reserved =>
    -- with its underscore the word is not reserved any more
    rw [String.toList_append]
    exact ⟨isWord_append_underscore word, isReserved_append_underscore _⟩
  · next free => exact ⟨word, by simpa using free⟩

/-- A name stays as it is. -/
theorem sanitize_of_name {text : String} (h : nameReason? text = none) : sanitize text = text := by
  obtain ⟨word, free⟩ := nameReason?_eq_none_iff.1 h
  -- there is nothing to trim, no character to replace and no letter to put first
  have chars := isNameChar_of_isWord word
  have trimmed : Text.trimChars text.toList = text.toList :=
    Text.trimChars_of_no_blank fun c hc => not_isBlank_of_isNameChar (chars c hc)
  have kept : text.toList.map nameCharOr = text.toList := by
    refine (List.map_congr_left fun c hc => ?_).trans (List.map_id _)
    exact if_pos (chars c hc)
  have letter : letterFirst text.toList = text.toList := by
    cases hcs : text.toList with
    | nil => simp [hcs, isWord] at word
    | cons c cs =>
      rw [hcs, isWord, Bool.and_eq_true] at word
      exact if_pos word.1
  have whole : wordOf text = text := by
    rw [wordOf, trimmed, kept, letter, String.ofList_toList]
  rw [sanitize_eq, whole, free]
  rfl

/-- Doing it twice changes nothing. -/
@[simp] theorem sanitize_sanitize (raw : String) : sanitize (sanitize raw) = sanitize raw :=
  sanitize_of_name (nameReason?_sanitize raw)

/-! ## Spellings of one text -/

theorem nameCharOr_toUpper (c : Char) : nameCharOr c.toUpper = (nameCharOr c).toUpper := by
  unfold nameCharOr
  rw [isNameChar_toUpper]
  split
  · rfl
  · rfl

/-- The letter put in front is one, whatever its case. -/
theorem map_toUpper_letterFirst (cs : List Char) :
    (letterFirst (cs.map Char.toUpper)).map Char.toUpper = (letterFirst cs).map Char.toUpper := by
  cases cs with
  | nil => rfl
  | cons c cs =>
    rw [List.map_cons, letterFirst, letterFirst, isAlpha_toUpper]
    split <;> simp [Function.comp_def]

theorem asciiUpper_wordOf_asciiUpper (raw : String) :
    Text.asciiUpper (wordOf (Text.asciiUpper raw)) = Text.asciiUpper (wordOf raw) := by
  have chars : (Text.trimChars (raw.toList.map Char.toUpper)).map nameCharOr =
      ((Text.trimChars raw.toList).map nameCharOr).map Char.toUpper := by
    rw [Text.trimChars_map isBlank_toUpper, List.map_map, List.map_map]
    exact List.map_congr_left fun c _ => nameCharOr_toUpper c
  simp only [Text.asciiUpper, wordOf, String.toList_ofList]
  rw [chars, map_toUpper_letterFirst]

/-- Texts that agree up to the case of letters become names that do. -/
theorem asciiUpper_sanitize {a b : String} (h : Text.asciiUpper a = Text.asciiUpper b) :
    Text.asciiUpper (sanitize a) = Text.asciiUpper (sanitize b) := by
  have words : Text.asciiUpper (wordOf a) = Text.asciiUpper (wordOf b) := by
    rw [← asciiUpper_wordOf_asciiUpper a, h, asciiUpper_wordOf_asciiUpper]
  -- whether a word is reserved depends on its capitals alone, so both get an underscore or none
  have reserved : isReserved (wordOf a) = isReserved (wordOf b) := by
    rw [isReserved, isReserved, words]
  have longer (t : String) : Text.asciiUpper (t ++ "_") = Text.asciiUpper t ++ "_" := by
    apply String.toList_inj.1
    simp
  rw [sanitize_eq, sanitize_eq, reserved]
  split
  · rw [longer, longer, words]
  · exact words

/-- A text stays as it is exactly when it is a name. -/
theorem sanitize_eq_self_iff {raw : String} : sanitize raw = raw ↔ nameReason? raw = none := by
  constructor
  · intro same
    rw [← same]
    exact nameReason?_sanitize raw
  · exact sanitize_of_name

/-- The texts that are names are those of names. -/
theorem Name.exists_ofText?_iff {text : String} :
    (∃ n, Name.ofText? text = .ok n) ↔ nameReason? text = none := by
  simp only [Name.ofText?_eq_ok_iff]
  constructor
  · rintro ⟨n, rfl⟩
    exact n.valid
  · intro valid
    exact ⟨⟨text, valid⟩, rfl⟩

/-- What `sanitize` does to texts: all of them become names, the names among them are the texts
    that stay as they are, doing it twice changes nothing, and texts that agree up to the case of
    letters become names of one key. -/
theorem sanitize_onto_names :
    (∀ raw, ∃ n, Name.ofText? (sanitize raw) = .ok n) ∧
    (∀ raw, sanitize raw = raw ↔ ∃ n, Name.ofText? raw = .ok n) ∧
    (∀ raw, sanitize (sanitize raw) = sanitize raw) ∧
    ∀ a b, Text.sameLetters a b = true → ∃ n k : Name,
      Name.ofText? (sanitize a) = .ok n ∧ Name.ofText? (sanitize b) = .ok k ∧ n.key = k.key := by
  have named (raw : String) : ∃ n, Name.ofText? (sanitize raw) = .ok n :=
    Name.exists_ofText?_iff.2 (nameReason?_sanitize raw)
  refine ⟨named, fun raw => ?_, sanitize_sanitize, fun a b same => ?_⟩
  · rw [sanitize_eq_self_iff, Name.exists_ofText?_iff]
  · obtain ⟨n, hn⟩ := named a
    obtain ⟨k, hk⟩ := named b
    refine ⟨n, k, hn, hk, ?_⟩
    rw [Name.key, Name.key, Name.ofText?_eq_ok_iff.1 hn, Name.ofText?_eq_ok_iff.1 hk]
    exact asciiUpper_sanitize (Text.sameLetters_iff.1 same)

/-- Two spellings of a reserved word between blanks: both get an underscore, and one key. -/
theorem sanitize_onto_names_reserved :
    Text.sameLetters "\u2003endIf " "\u2003ENDif " = true ∧ ∃ n k : Name,
      Name.ofText? (sanitize "\u2003endIf ") = .ok n ∧
      Name.ofText? (sanitize "\u2003ENDif ") = .ok k ∧
      n.text = "endIf_" ∧ k.text = "ENDif_" ∧ n.key = k.key := by
  have same : Text.sameLetters "\u2003endIf " "\u2003ENDif " = true := by decide +kernel
  obtain ⟨n, k, hn, hk, keys⟩ := sanitize_onto_names.2.2.2 _ _ same
  have first : sanitize "\u2003endIf " = "endIf_" := by decide +kernel
  have second : sanitize "\u2003ENDif " = "ENDif_" := by decide +kernel
  exact ⟨same, n, k, hn, hk, (Name.ofText?_eq_ok_iff.1 hn).trans first,
    (Name.ofText?_eq_ok_iff.1 hk).trans second, keys⟩

end BuildingControl.Erl
