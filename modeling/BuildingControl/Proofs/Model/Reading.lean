/-
  BuildingControl.Proofs.Model.Reading

  A reader of input files, and what it makes of the objects of a file.  It knows
  nothing of how files are written: it drops comments line by line, cuts the rest
  at semicolons and commas, and drops the blanks around each field.

  The main result is `readRecords_join`: from objects whose classes and values hold no
  character with a meaning of its own, the reader gets back the classes and the
  values, one record for one object, in order.
-/
import BuildingControl.Model.InputFile
import BuildingControl.Proofs.Checking
import BuildingControl.Proofs.Erl.Name
import Mathlib.Data.List.TakeWhile

namespace BuildingControl.Model

open Erl

/-! ## The reader -/

/-- What a reader makes of an object: its class and its fields. -/
structure Record where
  cls : String
  fields : List String
  deriving DecidableEq

/-- The text without its comments and line ends: on every line all from the first `!` on is
    dropped. -/
def uncommented (cs : List Char) : List Char :=
  (cs.splitOnP isLineEnd).flatMap fun line => line.takeWhile (· != '!')

/-- The texts of the objects; what follows the last semicolon is none if it is blank. -/
def objectTexts (cs : List Char) : List (List Char) :=
  let pieces := cs.splitOn ';'
  if (pieces.getLastD []).all Text.isBlank then pieces.dropLast else pieces

/-- The record of the text of an object: the first field is the class. -/
def Record.ofText (cs : List Char) : Record :=
  match (cs.splitOn ',').map fun field => String.ofList (Text.trimChars field) with
  | [] => ⟨"", []⟩
  | cls :: fields => ⟨cls, fields⟩

/-- The records of an input file. -/
def readRecords (text : String) : List Record :=
  (objectTexts (uncommented text.toList)).map Record.ofText

/-! ## Lines without comments -/

theorem not_isLineEnd_of_any {cs : List Char} (h : cs.any isLineEnd = false) :
    ∀ c ∈ cs, isLineEnd c = false := fun c hc => by
  simpa using List.any_eq_false.1 h c hc

/-- The indent of a field is blank. -/
theorem eq_of_mem_indent : ∀ c ∈ "    ".toList, c = ' ' := fun c hc => by
  have replicated : c ∈ List.replicate 4 ' ' := hc
  exact List.eq_of_mem_replicate replicated

/-- One line after another. -/
theorem uncommented_line {line : List Char} (h : ∀ c ∈ line, isLineEnd c = false)
    (rest : List Char) :
    uncommented (line ++ '\n' :: rest) = line.takeWhile (· != '!') ++ uncommented rest := by
  rw [uncommented, List.splitOnP_append_cons_of_forall_mem h '\n' rfl, List.flatMap_cons,
    uncommented]

/-- A line keeps what stands before its comment. -/
theorem uncommented_comment {front comment : List Char}
    (hf : ∀ c ∈ front, isLineEnd c = false ∧ c ≠ '!') (hc : ∀ c ∈ comment, isLineEnd c = false)
    (rest : List Char) :
    uncommented (front ++ '!' :: comment ++ '\n' :: rest) = front ++ uncommented rest := by
  rw [uncommented_line ?_ rest]
  · congr 1
    rw [List.takeWhile_append_of_pos fun c hc => by simpa using (hf c hc).2]
    simp
  · intro c hc'
    rcases List.mem_append.1 hc' with hc' | hc'
    · exact (hf c hc').1
    rcases List.mem_cons.1 hc' with rfl | hc'
    · rfl
    · exact hc c hc'

/-- A line without a comment stays as it is. -/
theorem uncommented_plain {line : List Char} (h : ∀ c ∈ line, isLineEnd c = false ∧ c ≠ '!')
    (rest : List Char) : uncommented (line ++ '\n' :: rest) = line ++ uncommented rest := by
  rw [uncommented_line (fun c hc => (h c hc).1) rest]
  congr 1
  exact List.takeWhile_eq_self_iff.2 fun c hc => by simpa using (h c hc).2

/-! ## Values with blanks in front -/

/-- The pieces are the values, each with some blanks in front. -/
def Spaced (values : List String) (pieces : List (List Char)) : Prop :=
  List.Forall₂ (fun v p => ∃ bs, (∀ b ∈ bs, b = ' ') ∧ p = bs ++ v.toList) values pieces

/-- The text is the values with blanks in front and commas between. -/
def Holds (values : List String) (text : List Char) : Prop :=
  ∃ pieces, Spaced values pieces ∧ text = [','].intercalate pieces

/-- More blanks in front. -/
theorem Holds.indent {values : List String} (nonempty : values ≠ []) {text bs : List Char}
    (h : Holds values text) (blank : ∀ b ∈ bs, b = ' ') : Holds values (bs ++ text) := by
  obtain ⟨pieces, spaced, rfl⟩ := h
  cases spaced with
  | nil => exact absurd rfl nonempty
  | @cons v p vs ps first rest =>
    obtain ⟨cs, hcs, rfl⟩ := first
    refine ⟨(bs ++ cs ++ v.toList) :: ps, .cons ⟨bs ++ cs, ?_, rfl⟩ rest, ?_⟩
    · intro b hb
      exact (List.mem_append.1 hb).elim (blank b) (hcs b)
    · cases ps <;> simp [List.append_assoc]

theorem Holds.single (value : String) {bs : List Char} (blank : ∀ b ∈ bs, b = ' ') :
    Holds [value] (bs ++ value.toList) :=
  ⟨[bs ++ value.toList], .cons ⟨bs, blank, rfl⟩ .nil, by simp⟩

theorem Holds.cons (value : String) {bs : List Char} (blank : ∀ b ∈ bs, b = ' ')
    {values : List String} (nonempty : values ≠ []) {text : List Char} (h : Holds values text) :
    Holds (value :: values) (bs ++ value.toList ++ ',' :: text) := by
  obtain ⟨pieces, spaced, rfl⟩ := h
  refine ⟨(bs ++ value.toList) :: pieces, .cons ⟨bs, blank, rfl⟩ spaced, ?_⟩
  cases spaced with
  | nil => exact absurd rfl nonempty
  | cons first rest => simp [List.append_assoc]

/-- A value that one field can hold. -/
def FitsField (value : String) : Prop :=
  ∀ c ∈ value.toList, isFieldChar c = true

theorem FitsField.not_mem {value : String} (h : FitsField value) {c : Char}
    (hc : isFieldChar c = false) : c ∉ value.toList := by
  intro hm
  rw [h c hm] at hc
  cases hc

theorem isBlank_space {b : Char} (h : b = ' ') : Text.isBlank b = true := by
  subst h
  decide

/-- The reader gets the values back, without the blanks around them. -/
theorem Holds.ofText {cls : String} {values : List String}
    (fits : ∀ v ∈ cls :: values, FitsField v) {text : List Char} (h : Holds (cls :: values) text) :
    Record.ofText text = ⟨Text.trim cls, values.map Text.trim⟩ := by
  obtain ⟨pieces, spaced, rfl⟩ := h
  have trimmed (vs : List String) (ps : List (List Char)) (h : Spaced vs ps) :
      ps.map (fun p => String.ofList (Text.trimChars p)) = vs.map Text.trim := by
    induction h with
    | nil => rfl
    | cons first _ ih =>
      obtain ⟨bs, blank, rfl⟩ := first
      rw [List.map_cons, List.map_cons, ih,
        Text.trimChars_append_of_blank fun b hb => isBlank_space (blank b hb)]
      rfl
  have noComma (vs : List String) (ps : List (List Char)) (h : Spaced vs ps)
      (fits : ∀ v ∈ vs, FitsField v) : ∀ p ∈ ps, ',' ∉ p := by
    induction h with
    | nil => simp
    | @cons v p vs ps first _ ih =>
      obtain ⟨bs, blank, rfl⟩ := first
      refine List.forall_mem_cons.2 ⟨fun hm => ?_, ih fun v hv => fits v (List.mem_cons_of_mem _ hv)⟩
      rcases List.mem_append.1 hm with hm | hm
      · exact absurd (blank _ hm) (by decide)
      · exact (fits v List.mem_cons_self).not_mem (by decide) hm
  have split : ([','].intercalate pieces).splitOn ',' = pieces := by
    refine List.splitOn_intercalate ',' (noComma _ _ spaced fits) fun h => ?_
    subst h
    cases spaced
  rw [Record.ofText, split, trimmed _ _ spaced]
  rfl

/-- No object ends inside its values. -/
theorem Holds.not_mem_semicolon {values : List String} (fits : ∀ v ∈ values, FitsField v)
    {text : List Char} (h : Holds values text) : ';' ∉ text := by
  obtain ⟨pieces, spaced, rfl⟩ := h
  induction spaced with
  | nil => simp
  | @cons v p vs ps first rest ih =>
    obtain ⟨bs, blank, rfl⟩ := first
    obtain ⟨hv, fits⟩ := List.forall_mem_cons.1 fits
    have here : ';' ∉ bs ++ v.toList := by
      intro hm
      rcases List.mem_append.1 hm with hm | hm
      · exact absurd (blank _ hm) (by decide)
      · exact hv.not_mem (by decide) hm
    cases ps with
    | nil => simpa using here
    | cons q qs =>
      have there := ih fits
      rw [List.intercalate_cons_cons, List.mem_append, List.mem_append, not_or, not_or]
      exact ⟨⟨here, by decide⟩, there⟩

/-! ## Objects -/

/-- An object whose class, values and comments do not spill over. -/
structure InputObject.Fits (o : InputObject) : Prop where
  cls : FitsField o.cls
  nonempty : o.fields ≠ []
  values : ∀ f ∈ o.fields, FitsField f.1
  comments : ∀ f ∈ o.fields, ∀ c ∈ f.2.toList, isLineEnd c = false

/-- The class and the values of an object. -/
def InputObject.values (o : InputObject) : List String :=
  o.cls :: o.fields.map Prod.fst

theorem InputObject.Fits.fitsField {o : InputObject} (h : o.Fits) :
    ∀ v ∈ o.values, FitsField v := by
  refine List.forall_mem_cons.2 ⟨h.cls, fun v hv => ?_⟩
  obtain ⟨f, hf, rfl⟩ := List.mem_map.1 hv
  exact h.values f hf

theorem toList_cell (value separator : String) : ∃ n, (cell value separator).toList =
    value.toList ++ separator.toList ++ List.replicate n ' ' :=
  ⟨cellWidth - (value ++ separator).length, by simp [cell]⟩

/-- A character that neither ends a line nor starts a comment. -/
theorem isFieldChar_plain {c : Char} (h : isFieldChar c = true) :
    isLineEnd c = false ∧ c ≠ '!' := by
  refine ⟨(isFieldChar_iff.1 h).1, ?_⟩
  rintro rfl
  exact absurd h (by decide)

/-- What a field line leaves: the value with its separator, and blanks around. -/
theorem uncommented_fieldLine {f : String × String} (value : FitsField f.1)
    (comment : ∀ c ∈ f.2.toList, isLineEnd c = false) (separator : String) (s : Char)
    (hs : separator.toList = [s]) (plain : isLineEnd s = false ∧ s ≠ '!') :
    ∃ bs, (∀ b ∈ bs, b = ' ') ∧ ∀ rest,
      uncommented ((fieldLine separator f).toList ++ rest) =
        "    ".toList ++ f.1.toList ++ s :: (bs ++ uncommented rest) := by
  obtain ⟨n, hcell⟩ := toList_cell f.1 separator
  refine ⟨List.replicate n ' ' ++ [' '], ?_, fun rest => ?_⟩
  · intro b hb
    rcases List.mem_append.1 hb with hb | hb
    · exact List.eq_of_mem_replicate hb
    · exact List.mem_singleton.1 hb
  have line : (fieldLine separator f).toList ++ rest =
      ("    ".toList ++ f.1.toList ++ s :: (List.replicate n ' ' ++ [' '])) ++
        '!' :: ("- ".toList ++ f.2.toList) ++ '\n' :: rest := by
    simp [fieldLine, hcell, hs]
  have dash : ∀ c ∈ "- ".toList, isLineEnd c = false := not_isLineEnd_of_any (by decide)
  rw [line, uncommented_comment]
  · simp
  · intro c hc
    rcases List.mem_append.1 hc with hc | hc
    · rcases List.mem_append.1 hc with hc | hc
      · rw [eq_of_mem_indent c hc]
        decide
      · exact isFieldChar_plain (value c hc)
    rcases List.mem_cons.1 hc with rfl | hc
    · exact plain
    rcases List.mem_append.1 hc with hc | hc
    · rw [List.eq_of_mem_replicate hc]
      decide
    · rw [List.mem_singleton.1 hc]
      decide
  · intro c hc
    exact (List.mem_append.1 hc).elim (dash c) (comment c)

/-- What the field lines of an object leave: the values with commas between, then the semicolon. -/
theorem uncommented_fieldLines {fields : List (String × String)} (nonempty : fields ≠ [])
    (values : ∀ f ∈ fields, FitsField f.1)
    (comments : ∀ f ∈ fields, ∀ c ∈ f.2.toList, isLineEnd c = false) :
    ∃ text bs, Holds (fields.map Prod.fst) text ∧ (∀ b ∈ bs, b = ' ') ∧ ∀ rest,
      uncommented ((fieldLines fields).toList ++ rest) = text ++ ';' :: (bs ++ uncommented rest) := by
  induction fields with
  | nil => exact absurd rfl nonempty
  | cons f fields ih =>
    obtain ⟨value, values⟩ := List.forall_mem_cons.1 values
    obtain ⟨comment, comments⟩ := List.forall_mem_cons.1 comments
    cases fields with
    | nil =>
      obtain ⟨bs, blank, line⟩ := uncommented_fieldLine value comment ";" ';' rfl (by decide)
      exact ⟨_, bs, Holds.single f.1 eq_of_mem_indent, blank, line⟩
    | cons g fields =>
      obtain ⟨bs, blank, line⟩ := uncommented_fieldLine value comment "," ',' rfl (by decide)
      obtain ⟨text, tail, holds, tailBlank, lines⟩ := ih (by simp) values comments
      have later : Holds ((g :: fields).map Prod.fst) (bs ++ text) := holds.indent (by simp) blank
      refine ⟨_, tail, Holds.cons f.1 eq_of_mem_indent (by simp) later, tailBlank, fun rest => ?_⟩
      have split : (fieldLines (f :: g :: fields)).toList ++ rest =
          (fieldLine "," f).toList ++ ((fieldLines (g :: fields)).toList ++ rest) := by
        simp [fieldLines]
      rw [split, line, lines]
      simp [List.append_assoc]

/-- What an object leaves: its class and its values with commas between, then the semicolon. -/
theorem uncommented_text {o : InputObject} (h : o.Fits) :
    ∃ text bs, Holds o.values text ∧ (∀ b ∈ bs, b = ' ') ∧ ∀ rest,
      uncommented (o.text.toList ++ rest) = text ++ ';' :: (bs ++ uncommented rest) := by
  obtain ⟨text, bs, holds, blank, lines⟩ := uncommented_fieldLines h.nonempty h.values h.comments
  have unindented : ∀ b ∈ ([] : List Char), b = ' ' := by simp
  have whole := Holds.cons o.cls unindented (by simpa using h.nonempty) holds
  refine ⟨_, bs, whole, blank, fun rest => ?_⟩
  have split : o.text.toList ++ rest =
      (o.cls.toList ++ [',']) ++ '\n' :: ((fieldLines o.fields).toList ++ ([] ++ '\n' :: rest)) := by
    simp [InputObject.text]
  have classLine : ∀ c ∈ o.cls.toList ++ [','], isLineEnd c = false ∧ c ≠ '!' := by
    intro c hc
    rcases List.mem_append.1 hc with hc | hc
    · exact isFieldChar_plain (h.cls c hc)
    · rw [List.mem_singleton.1 hc]
      decide
  rw [split, uncommented_plain classLine, lines, uncommented_plain (by simp)]
  simp [List.append_assoc]

/-! ## Files -/

/-- What a file leaves: the objects with semicolons between, and blanks at the end. -/
theorem uncommented_join {os : List InputObject} (h : ∀ o ∈ os, o.Fits) :
    ∃ texts tail, List.Forall₂ (fun o text => Holds o.values text) os texts ∧
      (∀ b ∈ tail, b = ' ') ∧
      uncommented (os.flatMap fun o => o.text.toList) = [';'].intercalate (texts ++ [tail]) := by
  induction os with
  | nil => exact ⟨[], [], .nil, by simp, rfl⟩
  | cons o os ih =>
    obtain ⟨first, rest⟩ := List.forall_mem_cons.1 h
    obtain ⟨text, bs, holds, blank, line⟩ := uncommented_text first
    obtain ⟨texts, tail, all, tailBlank, lines⟩ := ih rest
    rw [List.flatMap_cons, line, lines]
    -- the blanks after this object stand in front of the next one
    cases all with
    | nil =>
      refine ⟨[text], bs ++ tail, .cons holds .nil, ?_, by simp⟩
      intro b hb
      exact (List.mem_append.1 hb).elim (blank b) (tailBlank b)
    | @cons o' t os' ts holds' all =>
      have moved : Holds o'.values (bs ++ t) := holds'.indent (by simp [InputObject.values]) blank
      refine ⟨text :: (bs ++ t) :: ts, tail, .cons holds (.cons moved all), tailBlank, ?_⟩
      obtain ⟨u, us, hus⟩ := List.exists_cons_of_ne_nil (l := ts ++ [tail]) (by simp)
      simp [hus, List.append_assoc]

/-- From objects that do not spill over, the reader gets one record each, in order. -/
theorem readRecords_join {os : List InputObject} (h : ∀ o ∈ os, o.Fits) :
    readRecords (String.join (os.map InputObject.text)) =
      os.map fun o => ⟨Text.trim o.cls, o.fields.map fun f => Text.trim f.1⟩ := by
  obtain ⟨texts, tail, all, blank, file⟩ := uncommented_join h
  have chars (os : List InputObject) : (String.join (os.map InputObject.text)).toList =
      os.flatMap fun o => o.text.toList := by
    rw [String.toList_join, List.flatMap_map]
  have closed : ∀ text ∈ texts ++ [tail], ';' ∉ text := by
    intro text ht
    rcases List.mem_append.1 ht with ht | ht
    · obtain ⟨o, ho, holds⟩ := exists_of_mem_forall₂ all.flip ht
      exact Holds.not_mem_semicolon (h o ho).fitsField holds
    · rw [List.mem_singleton.1 ht]
      exact fun hm => absurd (blank _ hm) (by decide)
  have rest : ((texts ++ [tail]).getLastD []).all Text.isBlank = true := by
    rw [List.getLastD_eq_getLast?, List.getLast?_concat, Option.getD_some, List.all_eq_true]
    exact fun b hb => isBlank_space (blank b hb)
  have pieces : objectTexts (uncommented (String.join (os.map InputObject.text)).toList) = texts := by
    rw [chars, file, objectTexts, List.splitOn_intercalate ';' closed (by simp)]
    rw [if_pos rest, List.dropLast_concat]
  rw [readRecords, pieces]
  clear file closed rest pieces
  induction all with
  | nil => rfl
  | cons holds _ ih =>
    obtain ⟨first, h⟩ := List.forall_mem_cons.1 h
    rw [List.map_cons, List.map_cons, ih h, holds.ofText first.fitsField, List.map_map]
    rfl

end BuildingControl.Model
