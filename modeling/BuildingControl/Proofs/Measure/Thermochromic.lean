/-
  BuildingControl.Proofs.Measure.Thermochromic

  Which construction a branch of a thermochromic window selects.  The program has
  one branch for each band, in the order in which the bands were given, and one
  for the default.  Each assigns the handle of its construction, and this handle
  is the name of the one object that stands for the construction.

  There is one exception.  The handle of a construction is made a name of the
  language, but not kept away from the built-in words: for a construction called
  `Off` the branch assigns the number that the word `Off` stands for, and refers to
  no construction.  `Picks` says both, and `program_of_build` says it of every
  branch.
-/
import BuildingControl.Proofs.Erl.Usage
import BuildingControl.Proofs.Measure.Closed
import BuildingControl.Proofs.Measure.Host

namespace BuildingControl

open Erl Model

/-- An expression that is spelled as a name refers to the name alone, or to nothing if the name is
    a built-in word. -/
theorem Erl.Expression.names_of_name {value : Expression} {n : Name} (h : value.text = n.text) :
    value.names = .ok (if isBuiltin n.text then [] else [n]) := by
  -- the text of a name has one word
  have whole : value.names = .ok ([n].filter Name.isFree) := by
    rw [Expression.names_eq, h, ← n.namesAmong]
    exact congrArg namesAmong (words_word_end n.isWord)
  rw [whole]
  cases builtin : isBuiltin n.text with
  | true =>
    rw [List.filter_cons_of_neg (by simp [Name.isFree, builtin])]
    rfl
  | false =>
    rw [List.filter_cons_of_pos (by simp [Name.isFree, builtin])]
    rfl

/-- Construction handles have names of their own. -/
theorem Model.Coherent.nodup_constructions {m : Model} (h : Coherent m) :
    (m.constructions.map fun v => v.name.key).Nodup := by
  refine (h.nodup_keys .objects).sublist ?_
  simp only [keys, declared, List.map_append, List.map_map]
  -- five kinds of variables stand in front
  iterate 5 refine List.Sublist.trans ?_ (List.sublist_append_right _ _)
  exact List.sublist_append_left _ _

namespace Measure.Thermochromic

/-- What the right-hand side of a branch has to do with a construction.  It is the spelling of a
    handle; it refers to the handle alone, or to nothing if that is a built-in word; and the
    handle stands for one object, which has the text of the construction. -/
structure Picks (m : Model) (value : Expression) (construction : String) (handle : Name) : Prop where
  spelling : handle.text = sanitize construction
  text : value.text = handle.text
  names : value.names = .ok (if isBuiltin handle.text then [] else [handle])
  found : m.lookup? handle.text = some .constructionIndex
  index : ∃ v ∈ m.constructions, v.construction = construction ∧
    ∀ u ∈ m.constructions, Text.sameLetters u.name.text handle.text = true ↔ u = v

-- the text of a handle matters only through the name it is, so it is never computed here
attribute [local irreducible] sanitize

section Run

variable {w : Thermochromic} {m : Model} (h : w.script.run .empty = .ok m)

include h

/-- An expression that is spelled as the handle of a construction in use picks it. -/
theorem picks {c : String} (hc : c ∈ w.constructions) {value : Expression}
    (spelled : value.text = Text.trim (sanitize c)) : ∃ handle, Picks m value c handle := by
  obtain ⟨n, text, declared⟩ := exists_index_of_run h hc
  have coherent := Script.coherent_run coherent_empty h
  have listed : (⟨n, c⟩ : ConstructionIndex) ∈ m.constructions := by
    have mem := (Script.mem_declarations_iff h (d := .construction ⟨n, c⟩) nofun).2 declared
    obtain ⟨v, hv, same⟩ := List.mem_map.1 (mem_declarations.1 mem)
    cases same
    exact hv
  -- a name has no blanks to trim
  have whole : value.text = n.text := by
    rw [spelled, ← text, Text.trim_eq_self n.trimmed]
  refine ⟨n, text, whole, value.names_of_name whole, ?_, ⟨n, c⟩, listed, rfl,
    fun u hu => ⟨fun same => ?_, ?_⟩⟩
  · exact Script.lookup?_of_mem h declared (e := (n, .constructionIndex)) rfl
  · exact List.inj_on_of_nodup_map coherent.nodup_constructions hu listed
      (Text.sameLetters_iff.1 same)
  · rintro rfl
    exact Text.sameLetters_iff.2 rfl

/-- The script has one program, and no subroutine. -/
theorem programs_of_run : ∃ p : Program, m.programs = [p] ∧ m.subroutines = [] ∧
    p.name.text = w.programName ∧ w.table.build = .ok p.body := by
  have part : Script.one (do return .program ⟨← Name.ofText? w.programName, ← w.table.build⟩) ⊆
      w.script := fun x hx => by simp only [script, List.mem_append, hx, true_or, or_true]
  obtain ⟨ds, all, -⟩ := Script.exists_of_part h part
  obtain ⟨n, c, hn, hc, rfl⟩ := isProgram_table ds all
  have bodies : w.script.bodies = [.program ⟨n, c⟩] := by
    simp only [script, Script.bodies_append, Script.bodies_require, Script.bodies_sensor,
      Script.bodies_actuator, bodies_handles, Script.bodies_manager, List.nil_append,
      List.append_nil]
    rw [show Script.one _ = _ from all]
    rfl
  have programs := Script.objects_of_run h (.inl rfl)
  have subroutines := Script.objects_of_run h (.inr rfl)
  rw [bodies] at programs subroutines
  refine ⟨⟨n, c⟩, ?_, ?_, hn, hc⟩
  · exact List.map_injective_iff.2 (fun p q same => by cases same; rfl) programs
  · exact List.map_eq_nil_iff.1 subroutines

end Run

/-- The program of a window that builds: one branch for each band, in order, whose boundary is
    that of the band and whose action assigns the handle of the band's construction, and one
    branch for the default. -/
theorem program_of_build {w : Thermochromic} {a next : Numbering} {m : Model}
    (h : (Measure.thermochromicWindow w).build a = .ok (m, next)) :
    ∃ (p : Program) (t : RuleTable), m.programs = [p] ∧ m.subroutines = [] ∧
      p.name.text = w.programName ∧ p.body.statements = t.statements ∧
      t.subject.text = w.sensorName ∧ t.comparison = .le ∧
      List.Forall₂ (fun s r => r.boundary.value = s.upTo ∧ r.action.target.text = w.actuatorName ∧
        ∃ handle, Picks m r.action.value s.construction handle) w.states t.rules ∧
      t.otherwise.target.text = w.actuatorName ∧
      ∃ handle, Picks m t.otherwise.value w.defaultConstruction handle := by
  have run : w.script.run .empty = .ok m := (build_eq_ok_iff.1 h).1
  obtain ⟨p, programs, subroutines, name, built⟩ := programs_of_run run
  obtain ⟨t, table, lines⟩ := TableText.statements_of_build built
  obtain ⟨default, otherwise, subject, comparison, rows, last⟩ := TableText.reads_of_table table
  rw [table_eq] at otherwise rows subject comparison
  cases otherwise
  refine ⟨p, t, programs, subroutines, name, lines, subject, comparison, ?_, last.1,
    picks run w.defaultConstruction_mem last.2⟩
  -- row by row, as the bands were given
  rw [List.forall₂_map_left_iff] at rows
  have used := (List.forall₂_and_left w.states t.rules).2 ⟨fun s hs => construction_mem hs, rows⟩
  exact used.imp fun s r reads => ⟨reads.2.1, reads.2.2.1, picks run reads.1 reads.2.2.2⟩

/-- A window that is switched off while it is cold. -/
def switched : Thermochromic := ⟨"W", [⟨26.0, "Off"⟩], "TC", "M"⟩

/-- The construction `Off` has a handle, but the branch that is to select it refers to nothing. -/
theorem program_switched : ∃ (m : Model) (next : Numbering) (p : Program) (t : RuleTable),
    (Measure.thermochromicWindow switched).build .first = .ok (m, next) ∧ m.programs = [p] ∧
      p.body.statements = t.statements ∧ m.lookup? "Off" = some .constructionIndex ∧
      (∃ r, t.rules = [r] ∧ r.action.value.text = "Off" ∧ r.action.value.names = .ok []) ∧
      ∃ handle : Name, handle.text = "TC" ∧ t.otherwise.value.names = .ok [handle] := by
  have builds : ((Measure.thermochromicWindow switched).build .first).toOption.isSome = true := by
    decide +kernel
  obtain ⟨⟨m, next⟩, built⟩ := Option.isSome_iff_exists.1 builds
  have built := eq_ok_of_toOption built
  obtain ⟨p, t, programs, -, -, lines, -, -, rows, -, other, last⟩ := program_of_build built
  obtain ⟨r, handle, band, only⟩ : ∃ r handle, Picks m r.action.value "Off" handle ∧
      t.rules = [r] := by
    obtain ⟨r, rest, ⟨-, -, handle, picked⟩, none, all⟩ := List.forall₂_cons_left_iff.1 rows
    cases none
    exact ⟨r, handle, picked, all⟩
  have off : handle.text = "Off" := band.spelling.trans (by decide +kernel)
  have clear : other.text = "TC" := last.spelling.trans (by decide +kernel)
  refine ⟨m, next, p, t, built, programs, lines, off ▸ band.found,
    ⟨r, only, band.text.trans off, ?_⟩, other, clear, ?_⟩
  · rw [band.names, off, if_pos (by decide)]
  · rw [last.names, clear, if_neg (by decide)]

end Measure.Thermochromic

end BuildingControl
