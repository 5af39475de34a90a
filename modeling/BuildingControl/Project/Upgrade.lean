/-
  BuildingControl.Project.Upgrade

  Old project files.  In version 0 programs could have names with blanks and
  other characters of the building; since version 1 they are names of the
  language.

  A project is brought up to date one version after the other, and a version
  without a successor is a fault.  From version 0 on every version before the
  latest has one, so this is `upgrade` (`upgradeToLatest_eq`).
-/
import BuildingControl.Project.Basic

namespace BuildingControl.Project

open Erl

/-! ## Names of the language -/

/-- A line that runs a program under its new name. -/
def LineEntry.upgrade : LineEntry → LineEntry
  | .run subroutine => .run (sanitize subroutine)
  | line => line

/-- A table under its new name. -/
def TableEntry.upgrade (t : TableEntry) : TableEntry :=
  { t with name := sanitize t.name }

/-- A program under its new name. -/
def ProgramEntry.upgrade (p : ProgramEntry) : ProgramEntry :=
  { p with name := sanitize p.name, lines := p.lines.map LineEntry.upgrade }

/-- A project of version 0 as one of version 1. -/
def rename (p : Project) : Project :=
  { p with
    version := 1
    tables := p.tables.map TableEntry.upgrade
    programs := p.programs.map ProgramEntry.upgrade }

/-- A project of version 0 as one of version 1; later projects stay as they are. -/
def upgrade (p : Project) : Project :=
  if p.version = 0 then p.rename else p

/-! ## One version after the other -/

/-- No upgrade is known from this version. -/
structure NoUpgrade where
  version : Nat
  deriving DecidableEq

/-- The wording of the fault. -/
def NoUpgrade.message (fault : NoUpgrade) : String :=
  s!"Migration error: No migration path from version {fault.version}"

/-- A project in the version that follows its own. -/
def nextVersion (p : Project) : Except NoUpgrade Project :=
  match p.version with
  | 0 => .ok p.rename
  | v => .error ⟨v⟩

/-- The next version of a project is the one it is renamed to. -/
theorem nextVersion_eq_ok_iff {p q : Project} :
    p.nextVersion = .ok q ↔ p.version = 0 ∧ p.rename = q := by
  unfold nextVersion
  split
  · next h => simp [h]
  · next v other => simpa using fun h => absurd h other

/-- A project in the latest version; a later one stays as it is. -/
def upgradeToLatest (p : Project) : Except NoUpgrade Project :=
  if p.version < latestVersion then
    match _steps : p.nextVersion with
    | .ok next => next.upgradeToLatest
    | .error fault => .error fault
  else .ok p
termination_by latestVersion - p.version
decreasing_by
  obtain ⟨old, rfl⟩ := nextVersion_eq_ok_iff.1 _steps
  rw [old]
  exact Nat.zero_lt_one

/-- A project that is not older than the latest version stays as it is. -/
theorem upgradeToLatest_of_le {p : Project} (h : latestVersion ≤ p.version) :
    p.upgradeToLatest = .ok p := by
  rw [upgradeToLatest, if_neg (Nat.not_lt.2 h)]

/-- No version is without a successor, so every project is brought up to date. -/
theorem upgradeToLatest_eq (p : Project) : p.upgradeToLatest = .ok p.upgrade := by
  unfold upgrade
  split
  · next old =>
    -- one step leads to the latest version, where the next look stops
    have next : p.nextVersion = .ok p.rename := nextVersion_eq_ok_iff.2 ⟨old, rfl⟩
    rw [upgradeToLatest, if_pos (by rw [old]; exact Nat.zero_lt_one)]
    split
    · next q h =>
      rw [next] at h
      cases h
      exact upgradeToLatest_of_le (Nat.le_refl 1)
    · next fault h =>
      rw [next] at h
      cases h
  · next current => exact upgradeToLatest_of_le (Nat.one_le_iff_ne_zero.2 current)

end BuildingControl.Project
