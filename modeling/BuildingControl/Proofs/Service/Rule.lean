/-
  BuildingControl.Proofs.Service.Rule

  Tables from arguments.  A row is read from an argument as it was written into it, up to
  the blanks at the ends of its parts (`WritesRule.read`), and such blanks are nothing to
  the program of a table (`TableText.Respells.build`).  So the arguments that write down a
  table have the program of the table (`compileTable_of_written`).
-/
import BuildingControl.Proofs.Erl.Respelling
import BuildingControl.Service.Rule

namespace BuildingControl.Text

/-! ## Blanks around a text -/

/-- The characters of a text with blanks around them. -/
inductive Padded (text : List Char) : List Char → Prop
  | mk {before after : List Char} (front : ∀ b ∈ before, isBlank b = true)
      (back : ∀ b ∈ after, isBlank b = true) : Padded text (before ++ (text ++ after))

theorem Padded.of_all (before after : List Char) {text : List Char}
    (h : (before ++ after).all isBlank = true) : Padded text (before ++ (text ++ after)) := by
  rw [List.all_append, Bool.and_eq_true, List.all_eq_true, List.all_eq_true] at h
  exact .mk h.1 h.2

theorem Padded.trim {text cs : List Char} (h : Padded text cs) : trimChars cs = trimChars text := by
  obtain ⟨front, back⟩ := h
  rw [trimChars_append_of_blank front, trimChars_append_blanks back]

/-- A character that is no blank stands in the text itself. -/
theorem Padded.mem {text cs : List Char} (h : Padded text cs) {c : Char} (hc : c ∈ cs)
    (solid : isBlank c = false) : c ∈ text := by
  obtain ⟨front, back⟩ := h
  rcases List.mem_append.1 hc with hc | hc
  · rw [front c hc] at solid
    cases solid
  rcases List.mem_append.1 hc with hc | hc
  · exact hc
  · rw [back c hc] at solid
    cases solid

end BuildingControl.Text

namespace BuildingControl.Service

open Erl Text

/-! ## Arguments -/

/-- A text is split at the first of its colons. -/
theorem splitAtColon_append {front : List Char} (h : ':' ∉ front) (back : List Char) :
    splitAtColon (front ++ ':' :: back) = some (front, back) := by
  induction front with
  | nil => rfl
  | cons c front ih =>
    obtain ⟨other, rest⟩ := not_or.1 (List.mem_cons.not.1 h)
    rw [List.cons_append, splitAtColon, if_neg (Ne.symm other), ih rest]
    rfl

/-- The argument writes down the row, with blanks wherever they are dropped again. -/
def WritesRule (r : RuleText) (argument : String) : Prop :=
  ∃ boundary target value, Padded (Number.format r.boundary).toList boundary ∧
    Padded r.target.toList target ∧ Padded r.value.toList value ∧
    argument.toList = boundary ++ ':' :: (target ++ ':' :: value)

/-- The argument writes down the action. -/
def WritesAction (d : ActionText) (argument : String) : Prop :=
  ∃ target value, Padded d.target.toList target ∧ Padded d.value.toList value ∧
    argument.toList = target ++ ':' :: value

theorem colon_notMem_format {x : Float} (h : x.isFinite = true) : ':' ∉ (Number.format x).toList := by
  intro mem
  have number := Number.isNumberChar_of_mem_format h ':' mem
  cases number

theorem colon_notMem_name {text : String} (h : nameReason? text = none) : ':' ∉ text.toList := by
  intro mem
  obtain ⟨c, cs, shape, -, name, -⟩ := Name.shape ⟨text, h⟩
  have colon := name ':' (shape ▸ mem)
  cases colon

/-- Blanks around a text add no colon. -/
theorem colon_notMem_padded {text cs : List Char} (h : Padded text cs) (free : ':' ∉ text) :
    ':' ∉ cs :=
  fun mem => free (h.mem mem (by decide))

theorem trimmed_of_padded {text : String} {cs : List Char} (h : Padded text.toList cs) :
    trimmed cs = trim text := by
  rw [trimmed, h.trim, trim]

theorem trim_name {text : String} (h : nameReason? text = none) : trim text = text :=
  trim_eq_self (Name.trimmed ⟨text, h⟩)

/-- A row is read from an argument as it was written down. -/
theorem WritesRule.read {r : RuleText} {argument : String} (h : WritesRule r argument)
    (finite : r.boundary.isFinite = true) (name : nameReason? r.target = none)
    (readsBack : Number.ReadsBack r.boundary) :
    ∃ s, readRule argument = .ok s ∧ r.Respells s := by
  obtain ⟨_, _, _, number, target, value, written⟩ := h
  obtain ⟨y, read, equal⟩ := readsBack
  have first := splitAtColon_append (colon_notMem_padded number (colon_notMem_format finite))
  have second := splitAtColon_append (colon_notMem_padded target (colon_notMem_name name))
  have digits := number.trim.trans (Number.trimmed_format finite)
  have chars : Decimal.readChars (Number.format r.boundary).toList = .ok y := read
  refine ⟨⟨y, trim r.target, trim r.value⟩, ?_, equal, trim_name name, rfl⟩
  rw [readRule, written, first]
  dsimp only
  rw [second]
  dsimp only
  rw [digits, chars, trimmed_of_padded target, trimmed_of_padded value]

/-- An action is read from an argument as it was written down. -/
theorem WritesAction.read {d : ActionText} {argument : String} (h : WritesAction d argument)
    (name : nameReason? d.target = none) :
    readAction argument = .ok ⟨d.target, trim d.value⟩ := by
  obtain ⟨_, _, target, value, written⟩ := h
  have first := splitAtColon_append (colon_notMem_padded target (colon_notMem_name name))
  rw [readAction, written, first]
  dsimp only
  rw [trimmed_of_padded target, trimmed_of_padded value, trim_name name]

/-- The rows of a table are read from the arguments that write them down. -/
theorem eachOk_readRule {rules : List RuleText} {arguments : List String}
    (h : List.Forall₂ WritesRule rules arguments)
    (finite : ∀ r ∈ rules, r.boundary.isFinite = true)
    (names : ∀ r ∈ rules, nameReason? r.target = none)
    (readsBack : ∀ r ∈ rules, Number.ReadsBack r.boundary) :
    ∃ rows, eachOk readRule arguments = .ok rows ∧ List.Forall₂ RuleText.Respells rules rows := by
  induction h with
  | nil => exact ⟨[], rfl, .nil⟩
  | cons first _ ih =>
    obtain ⟨finite, finites⟩ := List.forall_mem_cons.1 finite
    obtain ⟨name, names⟩ := List.forall_mem_cons.1 names
    obtain ⟨back, backs⟩ := List.forall_mem_cons.1 readsBack
    obtain ⟨s, read, same⟩ := first.read finite name back
    obtain ⟨rows, rest, all⟩ := ih finites names backs
    exact ⟨s :: rows, by rw [eachOk, read, rest]; rfl, .cons same all⟩

/-! ## Tables from arguments -/

section Written

variable {t : TableText} {c : Code} (built : t.build = .ok c)
  (readsBack : ∀ r ∈ t.rules, Number.ReadsBack r.boundary) {rules : List String}
  (rows : List.Forall₂ WritesRule t.rules rules) {default : String}
  (action : ∀ d ∈ t.otherwise, WritesAction d default)

include built readsBack rows action

/-- A table that is a program is the same program when it is read from arguments that write it
    down: every argument is accepted, and the program has the lines and the names of the table. -/
theorem compileTable_of_written :
    ∃ read otherwise d, eachOk readRule rules = .ok read ∧ readAction default = .ok otherwise ∧
      compileTable ⟨t.subject, t.comparison, read, some otherwise⟩ = .ok d ∧
      d.lines = c.lines ∧ d.reads = c.reads ∧ d.writes = c.writes ∧ d.runs = c.runs := by
  have complete := TableText.complete_iff.2 (t.firstOf_build.exists_ok_iff.1 ⟨c, built⟩)
  obtain ⟨last, otherwise⟩ := Option.ne_none_iff_exists'.1 complete.otherwise
  obtain ⟨read, accepted, same⟩ :=
    eachOk_readRule rows complete.boundaries complete.targets readsBack
  have reading := (action last otherwise).read (complete.fallback last otherwise)
  have other : t.Respells
      ⟨t.subject, t.comparison, read, some ⟨last.target, trim last.value⟩⟩ :=
    ⟨rfl, rfl, same, by rw [otherwise]; rfl⟩
  obtain ⟨d, compiled, lines, usage⟩ := other.build built
  refine ⟨read, _, d, accepted, reading, ?_, lines, ?_, ?_, ?_⟩
  · rw [compileTable, compiled]
    rfl
  · rw [Code.reads, usage, Code.reads]
  · rw [Code.writes, usage, Code.writes]
  · rw [Code.runs, usage, Code.runs]

end Written

/-- A minus, an exponent and a zero with a sign; colons in values; blanks of several kinds. -/
theorem compileTable_colons :
    ∃ read otherwise c d,
      TableText.build ⟨"Tout", .lt, [⟨-2.5e-7, "C", "a:b:1"⟩, ⟨-0.0, "C", " 1 : D "⟩,
        ⟨1e21, "D", ":"⟩], some ⟨"C", "::C"⟩⟩ = .ok c ∧
      eachOk readRule [" -2.5e-7\t:C:  a:b:1", "0.0 : C :  1 : D \n", "1e21:D::"] = .ok read ∧
      readAction "\tC :::C " = .ok otherwise ∧
      compileTable ⟨"Tout", .lt, read, some otherwise⟩ = .ok d ∧ d.lines = c.lines ∧
      d.reads = c.reads ∧ d.reads.map Name.text = ["Tout", "a", "b", "D", "C"] := by
  have compiles : ((TableText.build ⟨"Tout", .lt, [⟨-2.5e-7, "C", "a:b:1"⟩, ⟨-0.0, "C", " 1 : D "⟩,
      ⟨1e21, "D", ":"⟩], some ⟨"C", "::C"⟩⟩).toOption.map fun c => c.reads.map Name.text) =
        some ["Tout", "a", "b", "D", "C"] := by decide +kernel
  obtain ⟨c, built, reads⟩ := Option.map_eq_some_iff.1 compiles
  have minus : Number.format (-2.5e-7) = "-2.5e-7" := by decide +kernel
  have zero : Number.format (-0.0) = "0.0" := by decide +kernel
  have large : Number.format 1e21 = "1e21" := by decide +kernel
  have rows : List.Forall₂ WritesRule
      [⟨-2.5e-7, "C", "a:b:1"⟩, ⟨-0.0, "C", " 1 : D "⟩, ⟨1e21, "D", ":"⟩]
      [" -2.5e-7\t:C:  a:b:1", "0.0 : C :  1 : D \n", "1e21:D::"] := by
    refine .cons ⟨_, _, _, .of_all [' '] ['\t'] rfl, .of_all [] [] rfl, .of_all [' ', ' '] [] rfl, ?_⟩
      (.cons ⟨_, _, _, .of_all [] [' '] rfl, .of_all [' '] [' '] rfl, .of_all [' '] ['\n'] rfl, ?_⟩
        (.cons ⟨_, _, _, .of_all [] [] rfl, .of_all [] [] rfl, .of_all [] [] rfl, ?_⟩ .nil))
    · rw [minus]
      rfl
    · rw [zero]
      rfl
    · rw [large]
      rfl
  have action : ∀ d ∈ some (⟨"C", "::C"⟩ : ActionText), WritesAction d "\tC :::C " := by
    rintro d ⟨⟩
    exact ⟨_, _, .of_all ['\t'] [' '] rfl, .of_all [] [' '] rfl, rfl⟩
  have readsBack : ∀ r ∈ ([⟨-2.5e-7, "C", "a:b:1"⟩, ⟨-0.0, "C", " 1 : D "⟩, ⟨1e21, "D", ":"⟩] :
      List RuleText), Number.ReadsBack r.boundary := by decide +kernel
  obtain ⟨read, otherwise, d, accepted, reading, compiled, lines, same, -⟩ :=
    compileTable_of_written (eq_ok_of_toOption built) readsBack rows action
  exact ⟨read, otherwise, c, d, eq_ok_of_toOption built, accepted, reading, compiled, lines, same,
    by rw [same, reads]⟩

end BuildingControl.Service
