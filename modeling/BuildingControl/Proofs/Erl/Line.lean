/-
  BuildingControl.Proofs.Erl.Line

  The lines of programs as text of one field: none contains a character that
  would end a field or a line, and none has a blank at either end.
-/
import BuildingControl.Erl.Code
import BuildingControl.Proofs.Erl.Name
import BuildingControl.Proofs.Number.Written

namespace BuildingControl.Erl

theorem isFieldChar_of_isNumberChar {c : Char} (h : Number.isNumberChar c = true) :
    isFieldChar c = true := by
  simp only [Number.isNumberChar, Bool.or_eq_true, beq_iff_eq] at h
  rcases h with ((h | rfl) | rfl) | rfl
  · exact isFieldChar_of_isNameChar (isNameChar_of_isDigit h)
  all_goals decide

/-- A text that stands in one field as it is. -/
structure IsCell (cs : List Char) : Prop where
  nonempty : cs ≠ []
  trimmed : Text.trimChars cs = cs
  field : ∀ c ∈ cs, isFieldChar c = true

theorem Name.isCell (n : Name) : IsCell n.text.toList :=
  ⟨n.toList_ne_nil, n.trimmed, n.isFieldChar⟩

theorem Expression.isCell (e : Expression) : IsCell e.text.toList :=
  ⟨e.shape.1, e.trimmed, e.isFieldChar⟩

theorem Boundary.isCell (b : Boundary) : IsCell (Number.format b.value).toList where
  nonempty := Number.format_ne_nil b.finite
  trimmed := Number.trimmed_format b.finite
  field c hc := isFieldChar_of_isNumberChar (Number.isNumberChar_of_mem_format b.finite c hc)

/-- Cells with characters of fields between them make a cell. -/
theorem IsCell.append {first middle last : List Char} (hf : IsCell first) (hl : IsCell last)
    (between : ∀ c ∈ middle, isFieldChar c = true) : IsCell (first ++ (middle ++ last)) := by
  refine ⟨by simp [hf.nonempty], ?_, ?_⟩
  · apply Text.trimChars_eq_self
    · intro c hc
      obtain ⟨d, ds, rfl⟩ := List.exists_cons_of_ne_nil hf.nonempty
      exact Text.not_isBlank_head_of_trimmed hf.trimmed hc
    · intro c hc
      rw [← List.append_assoc, List.getLast?_append_of_ne_nil _ hl.nonempty] at hc
      exact Text.not_isBlank_getLast_of_trimmed hl.trimmed hc
  · intro c hc
    rcases List.mem_append.1 hc with hc | hc
    · exact hf.field c hc
    rcases List.mem_append.1 hc with hc | hc
    · exact between c hc
    · exact hl.field c hc

/-- The characters of the fixed words of programs and input files. -/
def isWordChar (c : Char) : Bool :=
  isNameChar c || c == ':'

theorem isCell_of_forall_isWordChar {cs : List Char} (nonempty : cs ≠ [])
    (h : ∀ c ∈ cs, isWordChar c = true) : IsCell cs := by
  have each : ∀ c ∈ cs, Text.isBlank c = false ∧ isFieldChar c = true := by
    intro c hc
    have word := h c hc
    rw [isWordChar, Bool.or_eq_true, beq_iff_eq] at word
    rcases word with name | rfl
    · exact ⟨not_isBlank_of_isNameChar name, isFieldChar_of_isNameChar name⟩
    · decide
  exact ⟨nonempty, Text.trimChars_of_no_blank fun c hc => (each c hc).1,
    fun c hc => (each c hc).2⟩

/-- A fixed word is a cell. -/
theorem isCell_of_word {w : String} (h : (!w.toList.isEmpty && w.toList.all isWordChar) = true) :
    IsCell w.toList := by
  rw [Bool.and_eq_true, Bool.not_eq_true', List.isEmpty_eq_false_iff, List.all_eq_true] at h
  exact isCell_of_forall_isWordChar h.1 h.2

theorem Condition.isCell (c : Condition) : IsCell c.render.toList := by
  cases c with
  | compare subject comparison boundary =>
    have between : ∀ d ∈ (" " ++ comparison.symbol ++ " ").toList, isFieldChar d = true := by
      cases comparison <;> exact List.all_eq_true.1 (by decide)
    have whole := subject.isCell.append boundary.isCell between
    rw [← String.toList_append, ← String.toList_append] at whole
    simpa only [render, String.append_assoc] using whole
  | expression e => exact e.isCell

/-- Every line of a program is a cell. -/
theorem Statement.isCell (s : Statement) : IsCell s.render.toList := by
  have space : ∀ c ∈ " ".toList, isFieldChar c = true := List.all_eq_true.1 (by decide)
  have equals : ∀ c ∈ " = ".toList, isFieldChar c = true := List.all_eq_true.1 (by decide)
  have two {w t : String} (hw : IsCell w.toList) (ht : IsCell t.toList) :
      IsCell (w ++ " " ++ t).toList := by
    have whole := hw.append ht space
    rwa [← String.toList_append, ← String.toList_append, ← String.append_assoc] at whole
  cases s with
  | assign target value =>
    have right := target.isCell.append value.isCell equals
    rw [← String.toList_append, ← String.toList_append, ← String.append_assoc] at right
    have keyword : "SET " = "SET" ++ " " := rfl
    have whole := two (isCell_of_word (w := "SET") (by decide)) right
    rw [render, keyword]
    simpa only [String.append_assoc] using whole
  | ifThen c =>
    have keyword : "IF " = "IF" ++ " " := rfl
    rw [render, keyword]
    exact two (isCell_of_word (by decide)) c.isCell
  | elseIf c =>
    have keyword : "ELSEIF " = "ELSEIF" ++ " " := rfl
    rw [render, keyword]
    exact two (isCell_of_word (by decide)) c.isCell
  | otherwise =>
    rw [render]
    exact isCell_of_word (by decide)
  | endIf =>
    rw [render]
    exact isCell_of_word (by decide)
  | run subroutine =>
    have keyword : "RUN " = "RUN" ++ " " := rfl
    rw [render, keyword]
    exact two (isCell_of_word (by decide)) subroutine.isCell
  | leave =>
    rw [render]
    exact isCell_of_word (by decide)

theorem Code.isCell_of_mem_lines {c : Code} {line : String} (h : line ∈ c.lines) :
    IsCell line.toList := by
  obtain ⟨s, -, rfl⟩ := List.mem_map.1 h
  exact s.isCell

end BuildingControl.Erl
