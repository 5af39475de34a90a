/-
  BuildingControl.Proofs.Project.Upgrade

  What an old project becomes.  Tables, programs and the lines that run them are
  renamed each on their own, and the renaming may make one name of two.
  References survive for two reasons: texts that agree up to the case of letters
  become names that do (`asciiUpper_sanitize`), so a line still names the program
  it named; and a project whose check passes declares no name twice, so the line
  names nothing else.

  `Upgraded` is all that is promised, and every project of version 0 is upgraded
  in this sense (`upgraded_of_version_zero`).
-/
import BuildingControl.Project.Upgrade
import BuildingControl.Proofs.Erl.Sanitize
import BuildingControl.Proofs.Project.Sound

namespace BuildingControl.Project

open Erl

/-! ## Names and the rest -/

/-- What a line runs. -/
def LineEntry.run? : LineEntry → Option String
  | .run subroutine => some subroutine
  | _ => none

/-- The names that an upgrade is about: those of tables and programs, and what lines run. -/
def programNames (p : Project) : List String :=
  p.tables.map TableEntry.name ++
    p.programs.flatMap fun q => q.name :: q.lines.filterMap LineEntry.run?

/-- A line without the name of what it runs. -/
def LineEntry.unnamed : LineEntry → LineEntry
  | .run _ => .run ""
  | line => line

/-- A table without its name. -/
def TableEntry.unnamed (t : TableEntry) : TableEntry :=
  { t with name := "" }

/-- A program without its name and those of what it runs. -/
def ProgramEntry.unnamed (q : ProgramEntry) : ProgramEntry :=
  { q with name := "", lines := q.lines.map LineEntry.unnamed }

/-- All of a project but its version and the names that an upgrade is about. -/
def unnamed (p : Project) : Project :=
  { p with
    version := 0
    tables := p.tables.map TableEntry.unnamed
    programs := p.programs.map ProgramEntry.unnamed }

/-- What a line of a program runs, both counted from 0. -/
def runAt? (p : Project) (program line : Nat) : Option String :=
  p.programs[program]?.bind fun q => q.lines[line]?.bind LineEntry.run?

/-- Whether a program, counted from 0, has this name, the case of letters aside. -/
def NamesProgram (p : Project) (program : Nat) (name : String) : Prop :=
  ∃ q, p.programs[program]? = some q ∧ Text.sameLetters q.name name = true

/-! ## What an upgrade promises -/

/-- What a line of the old project that runs `old` and runs `new` in the new one refers to:
    exactly one program of the new project, a subroutine, and the one that it referred to. -/
structure RunResolved (p q : Project) (old new : String) : Prop where
  table : ∀ t ∈ q.tables, Text.sameLetters t.name new = false
  program : ∃ i s, q.programs[i]? = some s ∧ s.subroutine = true ∧
    (∀ k, q.NamesProgram k new ↔ k = i) ∧ ∀ k, p.NamesProgram k old → k = i

/-- What becomes of an old project. -/
structure Upgraded (p q : Project) : Prop where
  version : q.version = latestVersion
  names : ∀ n ∈ q.programNames, nameReason? n = none
  others : q.unnamed = p.unnamed
  runs : q.check = .ok () → ∀ program line new, q.runAt? program line = some new →
    ∃ old, p.runAt? program line = some old ∧ RunResolved p q old new
  again : q.upgradeToLatest = .ok q
  kept : (∀ n ∈ p.programNames, nameReason? n = none) → q = { p with version := latestVersion }

/-! ## Renaming -/

-- what a text becomes is not looked at here
attribute [local irreducible] sanitize

theorem run?_upgrade (line : LineEntry) : line.upgrade.run? = line.run?.map sanitize := by
  cases line <;> rfl

/-- Exactly the names are renamed. -/
theorem programNames_rename (p : Project) : p.rename.programNames = p.programNames.map sanitize := by
  have lines (ls : List LineEntry) : (ls.map LineEntry.upgrade).filterMap LineEntry.run? =
      (ls.filterMap LineEntry.run?).map sanitize := by
    rw [List.filterMap_map, List.map_filterMap]
    exact congrArg (List.filterMap · ls) (funext run?_upgrade)
  simp [programNames, rename, TableEntry.upgrade, ProgramEntry.upgrade, List.map_flatMap,
    List.flatMap_map, lines, Function.comp_def]

/-- The rest stays. -/
theorem unnamed_rename (p : Project) : p.rename.unnamed = p.unnamed := by
  have line (l : LineEntry) : l.upgrade.unnamed = l.unnamed := by cases l <;> rfl
  simp [unnamed, rename, TableEntry.upgrade, TableEntry.unnamed, ProgramEntry.upgrade,
    ProgramEntry.unnamed, Function.comp_def, line]

/-- Names of the language stay as well. -/
theorem rename_of_names {p : Project} (h : ∀ n ∈ p.programNames, nameReason? n = none) :
    p.rename = { p with version := latestVersion } := by
  have same {n : String} (hn : n ∈ p.programNames) : sanitize n = n := sanitize_of_name (h n hn)
  have tables : p.tables.map TableEntry.upgrade = p.tables := by
    refine (List.map_congr_left fun t ht => ?_).trans (List.map_id _)
    have named : t.name ∈ p.programNames :=
      List.mem_append_left _ (List.mem_map_of_mem ht)
    rw [TableEntry.upgrade, same named]
    rfl
  have programs : p.programs.map ProgramEntry.upgrade = p.programs := by
    refine (List.map_congr_left fun q hq => ?_).trans (List.map_id _)
    have named {n : String} (hn : n ∈ q.name :: q.lines.filterMap LineEntry.run?) :
        n ∈ p.programNames := List.mem_append_right _ (List.mem_flatMap.2 ⟨q, hq, hn⟩)
    have lines : q.lines.map LineEntry.upgrade = q.lines := by
      refine (List.map_congr_left fun l hl => ?_).trans (List.map_id _)
      cases l with
      | run s =>
        have runs : s ∈ q.lines.filterMap LineEntry.run? := List.mem_filterMap.2 ⟨_, hl, rfl⟩
        rw [LineEntry.upgrade, same (named (List.mem_cons_of_mem _ runs))]
        rfl
      | _ => rfl
    rw [ProgramEntry.upgrade, same (named List.mem_cons_self), lines]
    rfl
  rw [rename, tables, programs]
  rfl

/-- A line runs what it ran, under the new name. -/
theorem runAt?_rename (p : Project) (program line : Nat) :
    p.rename.runAt? program line = (p.runAt? program line).map sanitize := by
  unfold runAt?
  simp only [rename, List.getElem?_map]
  cases p.programs[program]? with
  | none => rfl
  | some q =>
    simp only [Option.map_some, Option.bind_some, ProgramEntry.upgrade, List.getElem?_map]
    cases q.lines[line]? with
    | none => rfl
    | some l => exact run?_upgrade l

/-- A program that a text names is named by the new text. -/
theorem NamesProgram.rename {p : Project} {program : Nat} {name : String}
    (h : p.NamesProgram program name) : p.rename.NamesProgram program (sanitize name) := by
  obtain ⟨q, found, same⟩ := h
  refine ⟨q.upgrade, ?_, ?_⟩
  · simp only [Project.rename, List.getElem?_map, found, Option.map_some]
  · exact Text.sameLetters_iff.2 (asciiUpper_sanitize (Text.sameLetters_iff.1 same))

/-! ## References of a sound project -/

/-- The names of tables and programs are apart. -/
theorem Sound.nodup_programs {p : Project} (h : p.Sound) :
    (p.tables.map (fun t => Text.asciiUpper t.name) ++
      p.programs.map fun q => Text.asciiUpper q.name).Nodup := by
  have sub : p.programBindings.Sublist p.bindings := by
    unfold bindings
    -- three lists of other names stand in front
    iterate 3 refine List.Sublist.trans ?_ (List.sublist_append_right _ _)
    exact .refl _
  have apart := h.apart.sublist (sub.map _)
  simpa [programBindings, Function.comp_def] using apart

/-- What is declared as a subroutine is a program entry. -/
theorem exists_subroutine {p : Project} {name : String}
    (declared : (Text.asciiUpper name, .subroutine) ∈ p.bindings.map Binding.entry) :
    ∃ s ∈ p.programs, s.subroutine = true ∧ Text.asciiUpper s.name = Text.asciiUpper name := by
  simp only [bindings, earlyBindings, programBindings, List.mem_map, List.mem_append] at declared
  obtain ⟨b, hb, entry⟩ := declared
  obtain ⟨key, cls⟩ := Prod.mk.inj entry
  -- entries of the other sections are declared as something else
  rcases hb with (⟨s, -, rfl⟩ | ⟨a, -, rfl⟩ | ⟨g, -, rfl⟩) | ⟨t, -, rfl⟩ | ⟨v, -, rfl⟩ |
    ⟨t, -, rfl⟩ | ⟨s, hs, rfl⟩
  iterate 6 cases cls
  refine ⟨s, hs, ?_, key⟩
  cases sub : s.subroutine with
  | true => rfl
  | false => simp [ProgramEntry.cls, sub] at cls

/-- A name that is declared for a subroutine is that of exactly one program, which is a
    subroutine, and of no table. -/
theorem Sound.subroutine {p : Project} (h : p.Sound) {name : String}
    (declared : (Text.asciiUpper name, .subroutine) ∈ p.bindings.map Binding.entry) :
    (∀ t ∈ p.tables, Text.sameLetters t.name name = false) ∧
      ∃ i s, p.programs[i]? = some s ∧ s.subroutine = true ∧
        ∀ k, p.NamesProgram k name ↔ k = i := by
  obtain ⟨s, hs, sub, same⟩ := exists_subroutine declared
  obtain ⟨-, apart, disjoint⟩ := List.nodup_append.1 h.nodup_programs
  have key : Text.asciiUpper name ∈ p.programs.map fun q => Text.asciiUpper q.name :=
    List.mem_map.2 ⟨s, hs, same⟩
  obtain ⟨i, hi⟩ := List.mem_iff_getElem?.1 hs
  have atKey : (p.programs.map fun q => Text.asciiUpper q.name)[i]? =
      some (Text.asciiUpper name) := by
    rw [List.getElem?_map, hi, Option.map_some, same]
  refine ⟨fun t ht => ?_, i, s, hi, sub, fun k => ⟨?_, ?_⟩⟩
  · have other := disjoint _ (List.mem_map_of_mem ht) _ key
    simpa [Text.sameLetters] using other
  · -- two programs of this name have one key, and keys stand in one place only
    rintro ⟨q, hk, sameToo⟩
    have again : (p.programs.map fun q => Text.asciiUpper q.name)[k]? =
        some (Text.asciiUpper name) := by
      rw [List.getElem?_map, hk, Option.map_some, Text.sameLetters_iff.1 sameToo]
    exact (List.getElem?_inj (List.getElem?_eq_some_iff.1 again).1 apart).1
      (again.trans atKey.symm)
  · rintro rfl
    exact ⟨s, hi, Text.sameLetters_iff.2 same⟩

/-! ## Upgraded projects -/

/-- A line of a renamed project whose check passes runs one subroutine, and the program that it
    ran before. -/
theorem runResolved_rename {p : Project} (checked : p.rename.check = .ok ()) {program line : Nat}
    {old : String} (runs : p.runAt? program line = some old) :
    RunResolved p p.rename old (sanitize old) := by
  have sound := sound_of_check checked
  have runsNew : p.rename.runAt? program line = some (sanitize old) := by
    rw [runAt?_rename, runs]
    rfl
  -- the check has looked this line up among the subroutines
  obtain ⟨q, hq, l, hl, target⟩ : ∃ q ∈ p.rename.programs, ∃ l ∈ q.lines,
      l.run? = some (sanitize old) := by
    obtain ⟨q, hq, rest⟩ := Option.bind_eq_some_iff.1 runsNew
    obtain ⟨l, hl, target⟩ := Option.bind_eq_some_iff.1 rest
    exact ⟨q, List.mem_of_getElem? hq, l, List.mem_of_getElem? hl, target⟩
  obtain rfl : l = .run (sanitize old) := by
    cases l <;> cases target
    rfl
  obtain ⟨table, i, s, found, sub, only⟩ := sound.subroutine (sound.runs q hq _ hl)
  exact ⟨table, i, s, found, sub, only, fun k named => (only k).1 named.rename⟩

/-- Every project of version 0 is upgraded: it comes to the latest version with names of the
    language, nothing else of it changes, its lines run what they ran, and neither a second
    upgrade nor one of names of the language renames anything. -/
theorem upgraded_of_version_zero {p : Project} (h : p.version = 0) :
    ∃ q, p.upgradeToLatest = .ok q ∧ Upgraded p q := by
  have renamed : p.upgradeToLatest = .ok p.rename := by
    rw [upgradeToLatest_eq, upgrade, if_pos h]
  refine ⟨p.rename, renamed, ?_⟩
  exact {
    version := rfl
    names := by
      rw [programNames_rename]
      intro n hn
      obtain ⟨raw, -, rfl⟩ := List.mem_map.1 hn
      exact nameReason?_sanitize raw
    others := unnamed_rename p
    runs := by
      intro checked program line new runs
      rw [runAt?_rename] at runs
      obtain ⟨old, ran, rfl⟩ := Option.map_eq_some_iff.1 runs
      exact ⟨old, ran, runResolved_rename checked ran⟩
    again := upgradeToLatest_of_le (Nat.le_refl _)
    kept := rename_of_names }

/-- An old project whose program runs a subroutine in another spelling. -/
def legacy : Project where
  version := 0
  name := "Sizing"
  reporting := .silent
  sensors := []
  actuators := []
  globals := ["Tout", "C"]
  trends := []
  internals := []
  outputs := []
  tables := [⟨"Win1 Control", "Tout", .le, [⟨26.0, "C", "1"⟩], ⟨"C", "2"⟩, none⟩]
  programs := [⟨"Resize PSZ To Match", false, [.set "C" "1", .run "SELECT Discrete-Flow"], none⟩,
    ⟨"Select Discrete-Flow", true, [.set "C" "2"], none⟩]
  measures := []

/-- The renamed line runs the renamed subroutine. -/
theorem upgraded_legacy : ∃ q, legacy.upgradeToLatest = .ok q ∧ Upgraded legacy q ∧
    q.check = .ok () ∧ RunResolved legacy q "SELECT Discrete-Flow" "SELECT_Discrete_Flow" := by
  obtain ⟨q, upgrades, upgraded⟩ := upgraded_of_version_zero (p := legacy) rfl
  obtain rfl : legacy.rename = q := by
    rw [upgradeToLatest_eq] at upgrades
    exact Except.ok.inj upgrades
  have checks : legacy.rename.check.toOption = some () := by decide +kernel
  have runs : legacy.rename.runAt? 0 1 = some "SELECT_Discrete_Flow" := by decide +kernel
  obtain ⟨old, ran, resolved⟩ := upgraded.runs (eq_ok_of_toOption checks) 0 1 _ runs
  cases ran
  exact ⟨_, upgrades, upgraded, eq_ok_of_toOption checks, resolved⟩

end BuildingControl.Project
