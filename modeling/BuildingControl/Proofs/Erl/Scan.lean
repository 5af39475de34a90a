/-
  BuildingControl.Proofs.Erl.Scan

  Scanning the bytes of a text finds the words of the text.  A character of ASCII
  is one byte and belongs to a class exactly when its byte does; the bytes of any
  other character belong to no class, so they start, continue and end nothing.
  The scan is followed along a cut of the text into tokens, one case for each
  kind of token (`map_scanBytes_of_tokenized`).
-/
import BuildingControl.Erl.Scan
import BuildingControl.Proofs.Erl.Tokenized

namespace BuildingControl.Erl

/-! ## Bytes of characters -/

/-- The UTF-8 form of characters. -/
def utf8 (cs : List Char) : List UInt8 :=
  cs.flatMap String.utf8EncodeChar

@[simp] theorem utf8_nil : utf8 [] = [] := rfl

theorem utf8_cons (c : Char) (cs : List Char) :
    utf8 (c :: cs) = String.utf8EncodeChar c ++ utf8 cs := List.flatMap_cons

theorem utf8_append (cs ds : List Char) : utf8 (cs ++ ds) = utf8 cs ++ utf8 ds :=
  List.flatMap_append

theorem toList_toByteArray (text : String) : text.toByteArray.data.toList = utf8 text.toList := by
  rw [← String.utf8Encode_toList, List.utf8Encode, List.toList_data_toByteArray, utf8]

/-- A character of ASCII is one byte. -/
theorem utf8_cons_of_ascii {c : Char} (h : c.toNat < 128) (cs : List Char) :
    utf8 (c :: cs) = c.toUInt8 :: utf8 cs := by
  have size : c.utf8Size = 1 := by
    rw [Char.utf8Size_eq_one_iff, UInt32.le_iff_toNat_le]
    exact Nat.le_of_lt_succ h
  rw [utf8_cons, String.utf8EncodeChar_eq_singleton size]
  rfl

theorem utf8_of_ascii {cs : List Char} (h : ∀ c ∈ cs, c.toNat < 128) :
    utf8 cs = cs.map Char.toUInt8 := by
  induction cs with
  | nil => rfl
  | cons c cs ih =>
    obtain ⟨first, rest⟩ := List.forall_mem_cons.1 h
    rw [utf8_cons_of_ascii first, ih rest, List.map_cons]

/-- The bytes of any other character are 128 or more. -/
theorem le_of_mem_utf8EncodeChar {c : Char} (h : 128 ≤ c.toNat) :
    ∀ b ∈ String.utf8EncodeChar c, 128 ≤ b.toNat := by
  have large : ¬ c.val.toNat ≤ 127 := Nat.not_le.2 h
  intro b hb
  simp only [String.utf8EncodeChar, if_neg large] at hb
  split at hb
  · simp only [List.mem_cons, List.not_mem_nil, or_false] at hb
    rcases hb with rfl | rfl <;> rw [UInt8.toNat_ofNat'] <;> omega
  split at hb
  · simp only [List.mem_cons, List.not_mem_nil, or_false] at hb
    rcases hb with rfl | rfl | rfl <;> rw [UInt8.toNat_ofNat'] <;> omega
  · simp only [List.mem_cons, List.not_mem_nil, or_false] at hb
    rcases hb with rfl | rfl | rfl | rfl <;> rw [UInt8.toNat_ofNat'] <;> omega

theorem exists_utf8_cons (c : Char) (cs : List Char) : ∃ b bs, utf8 (c :: cs) = b :: bs := by
  refine List.exists_cons_of_ne_nil ?_
  rw [utf8_cons]
  simp [String.utf8EncodeChar_ne_nil]

theorem toNat_toUInt8 {c : Char} (h : c.toNat < 128) : c.toUInt8.toNat = c.toNat :=
  Nat.mod_eq_of_lt (Nat.lt_trans h (by decide))

/-- Reading bytes as ASCII undoes writing ASCII. -/
theorem asciiText_utf8 {cs : List Char} (h : ∀ c ∈ cs, c.toNat < 128) :
    asciiText (utf8 cs) = String.ofList cs := by
  have back (c : Char) (hc : c ∈ cs) : Char.ofUInt8 c.toUInt8 = c :=
    Char.ext (UInt32.toNat_inj.1 (toNat_toUInt8 (h c hc)))
  rw [asciiText, utf8_of_ascii h, List.map_map]
  congr 1
  exact (List.map_congr_left back).trans (List.map_id cs)

/-! ## Classes of characters and of bytes -/

/-- A class of ASCII characters and the class of their bytes. -/
structure ByteClass (p : Char → Bool) (q : UInt8 → Bool) : Prop where
  ascii : ∀ c : Char, c.toNat < 128 → q c.toUInt8 = p c
  high : ∀ b : UInt8, 128 ≤ b.toNat → q b = false
  char : ∀ c, p c = true → c.toNat < 128

namespace ByteClass

variable {p p' : Char → Bool} {q q' : UInt8 → Bool}

/-- A class that is looked up character by character and byte by byte. -/
theorem of_table (ascii : ∀ n : Fin 128, q (Char.ofNat n).toUInt8 = p (Char.ofNat n))
    (high : ∀ n : Fin 128, q (UInt8.ofNat (128 + n)) = false)
    (char : ∀ c, p c = true → c.toNat < 128) : ByteClass p q where
  ascii c h := by
    have same := ascii ⟨c.toNat, h⟩
    rwa [Char.ofNat_toNat] at same
  high b h := by
    have bound : b.toNat < 256 := b.toNat_lt
    have none := high ⟨b.toNat - 128, by omega⟩
    rwa [show 128 + (b.toNat - 128) = b.toNat by omega, UInt8.ofNat_toNat] at none
  char := char

/-- A single character. -/
theorem single (d : Char) (h : d.toNat < 128) : ByteClass (· == d) (· == d.toUInt8) where
  ascii c hc := by
    rw [Bool.eq_iff_iff, beq_iff_eq, beq_iff_eq, ← UInt8.toNat_inj, toNat_toUInt8 hc,
      toNat_toUInt8 h, Char.toNat_inj]
  high b hb := by
    rw [beq_eq_false_iff_ne]
    rintro rfl
    rw [toNat_toUInt8 h] at hb
    omega
  char c same := by
    rw [beq_iff_eq.1 same]
    exact h

variable (k : ByteClass p q)

include k

/-- Either of two classes. -/
theorem or (l : ByteClass p' q') : ByteClass (fun c => p c || p' c) (fun b => q b || q' b) where
  ascii c h := by rw [k.ascii c h, l.ascii c h]
  high b h := by rw [k.high b h, l.high b h, Bool.or_false]
  char c h := (Bool.or_eq_true_iff.1 h).elim (k.char c) (l.char c)

/-- The first byte of a text belongs to a class when its first character does. -/
theorem of_utf8_cons {c : Char} {cs : List Char} {b : UInt8} {bs : List UInt8}
    (h : utf8 (c :: cs) = b :: bs) : q b = p c := by
  by_cases ascii : c.toNat < 128
  · rw [utf8_cons_of_ascii ascii] at h
    obtain ⟨rfl, -⟩ := List.cons.inj h
    exact k.ascii c ascii
  · have outside : p c = false := by
      by_contra inside
      exact ascii (k.char c (by simpa using inside))
    have high : 128 ≤ b.toNat := by
      obtain ⟨d, ds, encoded⟩ := List.exists_cons_of_ne_nil (String.utf8EncodeChar_ne_nil (c := c))
      rw [utf8_cons, encoded, List.cons_append] at h
      obtain ⟨rfl, -⟩ := List.cons.inj h
      exact le_of_mem_utf8EncodeChar (Nat.not_lt.1 ascii) d (encoded ▸ List.mem_cons_self)
    rw [outside, k.high b high]

theorem head_utf8 (cs : List Char) : (utf8 cs).head?.any q = cs.head?.any p := by
  cases cs with
  | nil => rfl
  | cons c cs =>
    obtain ⟨b, bs, bytes⟩ := exists_utf8_cons c cs
    rw [bytes]
    exact k.of_utf8_cons bytes

theorem mem_utf8 {cs : List Char} (h : ∀ c ∈ cs, p c = true) : ∀ b ∈ utf8 cs, q b = true := by
  have ascii : ∀ c ∈ cs, c.toNat < 128 := fun c hc => k.char c (h c hc)
  intro b hb
  rw [utf8_of_ascii ascii] at hb
  obtain ⟨c, hc, rfl⟩ := List.mem_map.1 hb
  rw [k.ascii c (ascii c hc), h c hc]

end ByteClass

theorem isDigit_class : ByteClass Char.isDigit isDigitByte := by
  refine .of_table (by decide) (by decide) fun c h => ?_
  have nine : c.toNat ≤ 57 := (Char.isDigit_iff_toNat.1 h).2
  omega

theorem isAlpha_class : ByteClass Char.isAlpha isLetterByte := by
  refine .of_table (by decide) (by decide) fun c h => ?_
  rw [isAlpha_iff] at h
  omega

theorem point_class : ByteClass (· == '.') (· == '.'.toUInt8) := .single '.' (by decide)

theorem at_class : ByteClass (· == '@') (· == '@'.toUInt8) := .single '@' (by decide)

theorem mark_class :
    ByteClass (fun c => c == 'e' || c == 'E') (fun b => b == 'e'.toUInt8 || b == 'E'.toUInt8) :=
  (ByteClass.single 'e' (by decide)).or (.single 'E' (by decide))

theorem startsName_class : ByteClass startsName startsWordByte :=
  isAlpha_class.or (.single '_' (by decide))

theorem isNameChar_class : ByteClass isNameChar isWordByte :=
  (isAlpha_class.or isDigit_class).or (.single '_' (by decide))

theorem startsExponent_class : ByteClass startsExponent startsExponentByte :=
  (isDigit_class.or (.single '-' (by decide))).or (.single '+' (by decide))

/-- The first byte of what does not go on with a name belongs to no name. -/
theorem EndsName.byte {rest : List Char} (ends : EndsName rest) :
    ∀ b, (utf8 rest).head? = some b → isWordByte b = false := by
  intro b hb
  have head := isNameChar_class.head_utf8 rest
  rw [hb, Option.any_some] at head
  rw [head]
  cases first : rest.head? with
  | none => rfl
  | some c => exact ends c first

/-! ## Literals -/

theorem skipNumber_piece {piece : List Char} (h : LiteralPiece piece) (bs : List UInt8) :
    skipNumber (utf8 piece ++ bs) = skipNumber bs := by
  cases h with
  | @digit c digit =>
    have ascii : c.toNat < 128 := isDigit_class.char c digit
    have byte : isDigitByte c.toUInt8 = true := (isDigit_class.ascii c ascii).trans digit
    rw [utf8_cons_of_ascii ascii, utf8_nil, List.singleton_append, skipNumber.eq_def]
    simp [byte]
  | point =>
    show skipNumber ('.'.toUInt8 :: bs) = skipNumber bs
    rw [skipNumber.eq_def]
    exact if_pos rfl
  | @exponent mark follower h starts =>
    have ascii : follower.toNat < 128 := startsExponent_class.char follower starts
    have byte : startsExponentByte follower.toUInt8 = true :=
      (startsExponent_class.ascii follower ascii).trans starts
    have front : utf8 [mark, follower] = [mark.toUInt8, follower.toUInt8] := by
      have first : mark.toNat < 128 := mark_class.char mark (by simpa using h)
      rw [utf8_cons_of_ascii first, utf8_cons_of_ascii ascii, utf8_nil]
    rw [front]
    rcases h with rfl | rfl <;> exact if_pos byte

/-- A literal is skipped whole. -/
theorem skipNumber_pieces {pieces : List (List Char)}
    (each : ∀ piece ∈ pieces, LiteralPiece piece) (bs : List UInt8) :
    skipNumber (utf8 pieces.flatten ++ bs) = skipNumber bs := by
  induction pieces with
  | nil => rfl
  | cons piece pieces ih =>
    obtain ⟨first, others⟩ := List.forall_mem_cons.1 each
    rw [List.flatten_cons, utf8_append, List.append_assoc, skipNumber_piece first, ih others]

/-- Nothing is skipped where neither a digit nor a point comes first, nor a mark that takes
    something along. -/
theorem skipNumber_eq_self {b : UInt8} {bs : List UInt8}
    (plain : (isDigitByte b || b == '.'.toUInt8) = false)
    (exponent : (b == 'e'.toUInt8 || b == 'E'.toUInt8) = true →
      bs.head?.any startsExponentByte = false) : skipNumber (b :: bs) = b :: bs := by
  rw [skipNumber.eq_def]
  simp only [plain]
  cases mark : b == 'e'.toUInt8 || b == 'E'.toUInt8 with
  | false => rfl
  | true =>
    have stays := exponent mark
    cases bs with
    | nil => rfl
    | cons d ds =>
      rw [List.head?_cons, Option.any_some] at stays
      simp [stays]

theorem skipNumber_of_endsLiteral {rest : List Char} (ends : EndsLiteral rest) :
    skipNumber (utf8 rest) = utf8 rest := by
  cases rest with
  | nil => rfl
  | cons c cs =>
    obtain ⟨b, bs, bytes⟩ := exists_utf8_cons c cs
    have noDigit : c.isDigit = false := by
      by_contra digit
      exact ends [c] cs (.digit (by simpa using digit)) rfl
    have noPoint : (c == '.') = false := by
      rw [beq_eq_false_iff_ne]
      rintro rfl
      exact ends ['.'] cs .point rfl
    rw [bytes]
    refine skipNumber_eq_self ?_ fun mark => ?_
    · rw [isDigit_class.of_utf8_cons bytes, point_class.of_utf8_cons bytes, noDigit, noPoint]
      rfl
    · rw [mark_class.of_utf8_cons bytes] at mark
      rw [utf8_cons_of_ascii (mark_class.char c mark)] at bytes
      obtain ⟨-, rfl⟩ := List.cons.inj bytes
      rw [startsExponent_class.head_utf8]
      by_contra starts
      simp only [Bool.not_eq_false, Option.any_eq_true] at starts
      obtain ⟨d, first, starts⟩ := starts
      obtain ⟨ds, rfl⟩ := List.head?_eq_some_iff.1 first
      exact ends [c, d] ds (.exponent (by simpa using mark) starts) rfl

/-! ## The scan along a cut -/

/-- The first byte of a literal, given what follows it. -/
theorem startsLiteral_byte {c : Char} {cs : List Char} {b : UInt8} {bs : List UInt8}
    (bytes : utf8 (c :: cs) = b :: bs) :
    (isDigitByte b || (b == '.'.toUInt8 && bs.head?.any isDigitByte)) = true ↔
      StartsLiteral c cs := by
  rw [startsLiteral_iff, isDigit_class.of_utf8_cons bytes, point_class.of_utf8_cons bytes]
  cases point : c == '.' with
  | false => simp
  | true =>
    rw [utf8_cons_of_ascii (point_class.char c point)] at bytes
    obtain ⟨-, rfl⟩ := List.cons.inj bytes
    rw [isDigit_class.head_utf8]

/-- Bytes that are 128 or more are passed over. -/
theorem scanBytes_high {high : List UInt8} (h : ∀ b ∈ high, 128 ≤ b.toNat) (n : Nat)
    (bs : List UInt8) : scanBytes (high.length + n) (high ++ bs) = scanBytes n bs := by
  induction high with
  | nil => rw [List.length_nil, Nat.zero_add, List.nil_append]
  | cons b high ih =>
    obtain ⟨first, rest⟩ := List.forall_mem_cons.1 h
    rw [List.length_cons, Nat.add_right_comm, List.cons_append, scanBytes,
      isDigit_class.high b first, point_class.high b first, at_class.high b first,
      startsName_class.high b first]
    exact ih rest

/-- A character that is a token of its own is passed over with all its bytes. -/
theorem scanBytes_other {c : Char} {rest : List Char} (literal : ¬ StartsLiteral c rest)
    (function : c ≠ '@') (name : startsName c = false) {n : Nat}
    (enough : (utf8 (c :: rest)).length ≤ n) :
    ∃ m, (utf8 rest).length ≤ m ∧ scanBytes n (utf8 (c :: rest)) = scanBytes m (utf8 rest) := by
  by_cases ascii : c.toNat < 128
  · have bytes := utf8_cons_of_ascii ascii rest
    rw [bytes, List.length_cons] at enough
    obtain ⟨m, rfl⟩ : ∃ m, n = m + 1 := ⟨n - 1, by omega⟩
    refine ⟨m, by omega, ?_⟩
    rw [bytes, scanBytes, if_neg (mt (startsLiteral_byte bytes).1 literal),
      at_class.ascii c ascii, startsName_class.ascii c ascii]
    simp [function, name]
  · rw [utf8_cons, List.length_append] at enough
    obtain ⟨m, rfl⟩ := Nat.exists_eq_add_of_le (Nat.le_of_add_right_le enough)
    refine ⟨m, by omega, ?_⟩
    rw [utf8_cons, scanBytes_high (le_of_mem_utf8EncodeChar (Nat.not_lt.1 ascii))]

/-- Scanning a text finds the names among the tokens it is cut into. -/
theorem map_scanBytes_of_tokenized {cs : List Char} {ts : List Token} (h : Tokenized cs ts)
    {n : Nat} (enough : (utf8 cs).length ≤ n) :
    (scanBytes n (utf8 cs)).map asciiText = ts.filterMap Token.name? := by
  induction h generalizing n with
  | nil => cases n <;> rfl
  | @number c pieces rest ts starts each ends _ ih =>
    have ascii : c.toNat < 128 := by
      rcases starts with digit | ⟨rfl, -⟩
      · exact isDigit_class.char c digit
      · decide
    have bytes := utf8_cons_of_ascii ascii (pieces.flatten ++ rest)
    have left : skipNumber (utf8 (pieces.flatten ++ rest)) = utf8 rest := by
      rw [utf8_append, skipNumber_pieces each, skipNumber_of_endsLiteral ends]
    rw [bytes, utf8_append, List.length_cons, List.length_append] at enough
    obtain ⟨m, rfl⟩ : ∃ m, n = m + 1 := ⟨n - 1, by omega⟩
    rw [bytes, scanBytes, if_pos ((startsLiteral_byte bytes).2 starts), left]
    exact ih (by omega)
  | @function name rest ts all ends _ ih =>
    have bytes : utf8 ('@' :: (name ++ rest)) = '@'.toUInt8 :: (utf8 name ++ utf8 rest) := by
      rw [utf8_cons_of_ascii (by decide), utf8_append]
    rw [bytes, List.length_cons, List.length_append] at enough
    obtain ⟨m, rfl⟩ : ∃ m, n = m + 1 := ⟨n - 1, by omega⟩
    have literal : ¬ StartsLiteral '@' (name ++ rest) := by
      rintro (digit | ⟨point, -⟩)
      · cases digit
      · cases point
    rw [bytes, scanBytes, if_neg (mt (startsLiteral_byte bytes).1 literal),
      if_pos (beq_self_eq_true _),
      Text.dropWhile_append_of_stops (isNameChar_class.mem_utf8 all) ends.byte]
    exact ih (by omega)
  | @name c more rest ts starts all ends _ ih =>
    have ascii : c.toNat < 128 := startsName_class.char c starts
    have bytes : utf8 (c :: (more ++ rest)) = c.toUInt8 :: (utf8 more ++ utf8 rest) := by
      rw [utf8_cons_of_ascii ascii, utf8_append]
    have function : (c == '@') = false := by
      rw [beq_eq_false_iff_ne]
      rintro rfl
      cases starts
    have word : asciiText (c.toUInt8 :: utf8 more) = String.ofList (c :: more) := by
      rw [← utf8_cons_of_ascii ascii, asciiText_utf8]
      exact List.forall_mem_cons.2 ⟨ascii, fun d hd => isNameChar_class.char d (all d hd)⟩
    rw [bytes, List.length_cons, List.length_append] at enough
    obtain ⟨m, rfl⟩ : ∃ m, n = m + 1 := ⟨n - 1, by omega⟩
    rw [bytes, scanBytes,
      if_neg (mt (startsLiteral_byte bytes).1 (not_startsLiteral_of_startsName starts _)),
      at_class.ascii c ascii, startsName_class.ascii c ascii, function, starts,
      Text.takeWhile_append_of_stops (isNameChar_class.mem_utf8 all) ends.byte,
      Text.dropWhile_append_of_stops (isNameChar_class.mem_utf8 all) ends.byte]
    show asciiText _ :: _ = _
    rw [word, ih (by omega)]
    rfl
  | @other c rest ts literal function name _ ih =>
    obtain ⟨m, room, step⟩ := scanBytes_other literal function name enough
    rw [step]
    exact ih room

/-- The words found among the bytes of a text are the name tokens of the text. -/
theorem scanWords_eq (text : String) : scanWords text = words text.toList := by
  rw [scanWords, toList_toByteArray]
  exact map_scanBytes_of_tokenized (tokenized_iff.2 rfl) le_rfl

/-- The names of an expression are those among its words. -/
theorem Expression.names_eq (e : Expression) : e.names = namesAmong (words e.text.toList) := by
  rw [names, scanWords_eq]

end BuildingControl.Erl
