/-
  BuildingControl.Proofs.Project.Conversion

  Projects converted from one format to another (`read_write`).  Whatever was
  read can be written in either format, and is read from there as it was, with
  one exception: a JSON text has no word for a number that is not finite.  The
  check of a project refuses such a number as the boundary of a table, but not
  among the arguments of a measure, so a project that was read from YAML may
  become a JSON text that no longer is a project.
-/
import BuildingControl.Project.Text
import BuildingControl.Proofs.Coding.Project
import BuildingControl.Proofs.Document.Json.Tree
import BuildingControl.Proofs.Document.Yaml.Node
import BuildingControl.Proofs.Project.Accepted

namespace BuildingControl.Project

open Document

/-! ## Projects that were read -/

theorem read_eq_ok_iff {f : Format} {text : String} {p : Project} :
    read f text = .ok p ↔
      ∃ old, decode? f text = some old ∧ old.upgrade = p ∧ p.check = .ok () := by
  unfold read
  cases decode? f text with
  | none => simp
  | some old =>
    cases checked : old.upgrade.check with
    | error defect =>
      constructor
      · simp [checked]
      · rintro ⟨_, same, rfl, sound⟩
        cases same
        rw [checked] at sound
        cases sound
    | ok u =>
      constructor
      · intro h
        simp only [checked, Except.ok.injEq] at h
        exact ⟨old, rfl, h, h ▸ checked⟩
      · rintro ⟨_, same, rfl, -⟩
        cases same
        simp [checked]

/-- A project is upgraded once. -/
theorem version_upgrade_ne_zero (p : Project) : p.upgrade.version ≠ 0 := by
  unfold upgrade
  split
  next => exact Nat.one_ne_zero
  next current => exact current

theorem upgrade_of_version_ne_zero {p : Project} (h : p.version ≠ 0) : p.upgrade = p :=
  if_neg h

theorem trends_upgrade (p : Project) : p.upgrade.trends = p.trends := by
  unfold upgrade
  split <;> rfl

/-- The number of timesteps of a trend was read as a count. -/
theorem timesteps_lt_of_decode? {f : Format} {text : String} {p : Project}
    (h : decode? f text = some p) : ∀ t ∈ p.trends, t.timesteps < countLimit := by
  cases f with
  | yaml =>
    obtain ⟨node, -, decoded⟩ := Option.bind_eq_some_iff.1 h
    exact Coding.timesteps_lt_of_project? counts_node decoded
  | json =>
    obtain ⟨value, -, decoded⟩ := Option.bind_eq_some_iff.1 h
    exact Coding.timesteps_lt_of_project? counts_value decoded

/-- What is certain of a project that was read. -/
structure WasRead (p : Project) : Prop where
  version : p.version ≠ 0
  timesteps : ∀ t ∈ p.trends, t.timesteps < countLimit
  checked : p.check = .ok ()

theorem wasRead_of_read {f : Format} {text : String} {p : Project} (h : read f text = .ok p) :
    p.WasRead := by
  obtain ⟨old, decoded, rfl, checked⟩ := read_eq_ok_iff.1 h
  refine ⟨version_upgrade_ne_zero old, ?_, checked⟩
  rw [trends_upgrade]
  exact timesteps_lt_of_decode? decoded

/-! ## Numbers and formats -/

/-- Whether a format has a word for a number. -/
def Format.keeps : Format → Float → Bool
  | .yaml, _ => true
  | .json, x => x.isFinite

/-- What is asked of the writer and the reader of a format: that finite numbers are read as they
    were written, and that a YAML document is read as the tree it was written from. -/
def WrittenExactly (p : Project) : Format → Prop
  | .yaml => (∀ x ∈ p.numbers, Yaml.ReadsBack x) ∧
      Yaml.read? (Yaml.write (Coding.projectValue p)) = some (Yaml.nodeOf (Coding.projectValue p))
  | .json => ∀ x ∈ p.numbers, Json.ReadsBack x

/-- A project is decoded from its own text, if the format has a word for each of its numbers. -/
theorem decode?_encode {g : Format} {p : Project} (h : p.WasRead) (written : p.WrittenExactly g) :
    decode? g (encode g p) = Option.guard (fun p => p.numbers.all g.keeps) p := by
  have version : p.version < countLimit :=
    Nat.lt_of_le_of_lt (version_le_of_check h.checked) (by decide)
  cases g with
  | yaml =>
    obtain ⟨numbers, tree⟩ := written
    show (Yaml.read? (Yaml.write (Coding.projectValue p))).bind Coding.project? = _
    rw [tree, Option.bind_some]
    exact Coding.project?_render Yaml.faithful_nodeOf version h.timesteps numbers
  | json =>
    have fits : Value.Fits Json.ReadsBack 6 (Coding.projectValue p) :=
      Coding.fits_projectValue version h.timesteps written
    show (Json.read? (Json.pretty (Coding.projectValue p))).bind Coding.project? = _
    rw [Json.read?_pretty fits (by decide), Option.bind_some]
    exact Coding.project?_render (Json.faithful_restored Json.ReadsBack) version h.timesteps written

/-- Of the numbers of a checked project those of its tables are finite. -/
theorem all_keeps_numbers_iff {g : Format} {p : Project} (h : p.check = .ok ()) :
    p.numbers.all g.keeps = true ↔ ∀ m ∈ p.measures, m.numbers.all g.keeps = true := by
  have tables : ∀ t ∈ p.tables, ∀ r ∈ t.rules, g.keeps r.boundary = true := by
    intro t ht r hr
    cases g with
    | yaml => rfl
    | json => exact ((sound_of_check h).tables t ht).finite r hr
  simpa [numbers] using fun _ => tables

/-! ## Conversion -/

/-- A project with a bound that is never reached. -/
def unboundedVote : String :=
  "version: 1\nname: office\nmeasures:\n- measure: comfort_halt\n  max_pmv: .inf\n"

end BuildingControl.Project
