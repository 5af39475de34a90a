/-
  BuildingControl.Proofs.Project.Accepted

  The check of a project file accepts every sound project of a version it knows, and
  no other (`check_eq_ok_iff`).  The check declares names in one running pass, so each
  section is followed with the names before it (`Names.with`): as long as all of them
  are different from each other, every entry finds its own name free, and the names it
  refers to declared.
-/
import BuildingControl.Proofs.Project.Sound
import Mathlib.Data.List.Nodup

namespace BuildingControl.Project

open Erl Model

/-! ## Names so far -/

/-- The names after these are declared, one after the other. -/
def Names.with (names : Names) (bs : List Binding) : Names :=
  (bs.map Binding.entry).reverse ++ names

theorem Names.with_cons (names : Names) (b : Binding) (bs : List Binding) :
    names.with (b :: bs) = Names.with (b.entry :: names) bs := by
  rw [Names.with, List.map_cons, List.reverse_cons, List.append_assoc]
  rfl

theorem Names.with_append (names : Names) (bs cs : List Binding) :
    names.with (bs ++ cs) = (names.with bs).with cs := by
  rw [Names.with, List.map_append, List.reverse_append, List.append_assoc]
  rfl

theorem Names.mem_with {names : Names} {bs : List Binding} {e : String × NameClass} :
    e ∈ names.with bs ↔ e ∈ bs.map Binding.entry ∨ e ∈ names := by
  rw [Names.with, List.mem_append, List.mem_reverse]

/-- Names that are different stay different with fewer of them. -/
theorem Names.Apart.of_with {names : Names} {bs : List Binding} (h : (names.with bs).Apart) :
    names.Apart := by
  have sub : (names.map Prod.fst).Sublist ((names.with bs).map Prod.fst) :=
    (List.sublist_append_right _ names).map Prod.fst
  exact h.sublist sub

/-- Of different names each stands for what it was declared as. -/
theorem Names.find?_of_mem {names : Names} (apart : names.Apart) {name : String} {cls : NameClass}
    (mem : (Text.asciiUpper name, cls) ∈ names) : names.find? name = some cls := by
  have finds : (List.find? (fun d => d.1 == Text.asciiUpper name) names).isSome = true :=
    List.find?_isSome.2 ⟨_, mem, beq_self_eq_true _⟩
  obtain ⟨d, found⟩ := Option.isSome_iff_exists.1 finds
  have key : d.1 = Text.asciiUpper name := by simpa using List.find?_some found
  have one : d = (Text.asciiUpper name, cls) :=
    List.inj_on_of_nodup_map apart (List.mem_of_find?_eq_some found) mem key
  rw [Names.find?, found, one]
  rfl

/-- A name that comes next is free. -/
theorem Names.find?_eq_none {names : Names} {b : Binding} (apart : Names.Apart (b.entry :: names)) :
    names.find? b.name = none := by
  by_contra found
  obtain ⟨cls, found⟩ := Option.ne_none_iff_exists'.1 found
  have old := List.mem_map_of_mem (f := Prod.fst) (mem_of_find? found)
  exact (List.nodup_cons.1 apart).1 old

/-! ## Sections -/

/-- A section whose entries fit is declared, as long as its names are words that are different from
    each other and from those before. -/
theorem declareEach_of_fits {α : Type} (declare : Names → Nat → α → Except Defect Names)
    (binding : α → Binding) (Fits : Names → α → Prop)
    (step : ∀ {names i x}, nameReason? (binding x).name = none →
      Names.Apart ((binding x).entry :: names) → Fits names x →
      declare names i x = .ok ((binding x).entry :: names))
    {names : Names} {i : Nat} {xs : List α}
    (words : ∀ x ∈ xs, nameReason? (binding x).name = none)
    (apart : (names.with (xs.map binding)).Apart)
    (fits : ∀ x ∈ xs, ∀ more, names ⊆ more → Fits more x) :
    declareEach declare names i xs = .ok (names.with (xs.map binding)) := by
  induction xs generalizing names i with
  | nil => rfl
  | cons x xs ih =>
    rw [List.map_cons, Names.with_cons] at apart
    obtain ⟨word, words⟩ := List.forall_mem_cons.1 words
    obtain ⟨first, rest⟩ := List.forall_mem_cons.1 fits
    have declared := step (i := i) word apart.of_with (first names (List.Subset.refl names))
    rw [declareEach, declared, List.map_cons, Names.with_cons]
    -- what fits with fewer names fits with one more
    refine ih words apart fun y hy more sub => rest y hy more ?_
    exact fun e he => sub (List.mem_cons_of_mem _ he)

theorem checkEach_of_forall {α : Type} {check : Nat → α → Except Defect Unit} {xs : List α}
    (h : ∀ x ∈ xs, ∀ i, check i x = .ok ()) : checkEach check xs = .ok () := by
  refine allOk_eq_ok_iff.2 fun x hx => ?_
  have mem : x.1 ∈ xs := by
    have at_ := List.mem_zipIdx_iff_getElem?.1 hx
    exact List.mem_of_getElem? at_
  exact h x.1 mem x.2

section Sections

variable {names : Names} {i : Nat}

theorem declareName_of_word {place : Place} {b : Binding} (word : nameReason? b.name = none)
    (apart : Names.Apart (b.entry :: names)) :
    declareName names b.cls place b.name = .ok (b.entry :: names) :=
  declareName_eq_ok_iff.2 ⟨word, Names.find?_eq_none apart, rfl⟩

theorem SensorEntry.Sound.declare {s : SensorEntry} (h : s.Sound)
    (word : nameReason? s.name = none)
    (apart : Names.Apart ((Binding.mk s.name .sensor).entry :: names)) :
    declareSensor names i s = .ok ((Binding.mk s.name .sensor).entry :: names) := by
  refine bind_eq_ok_iff.2 ⟨_, declareName_of_word (b := ⟨s.name, .sensor⟩) word apart, ?_⟩
  simp only [check_bind_eq_ok_iff, checkField_eq_ok_iff]
  exact ⟨h.key, h.output, rfl⟩

theorem ActuatorEntry.Sound.declare {a : ActuatorEntry} (h : a.Sound)
    (word : nameReason? a.name = none)
    (apart : Names.Apart ((Binding.mk a.name .actuator).entry :: names)) :
    declareActuator names i a = .ok ((Binding.mk a.name .actuator).entry :: names) := by
  refine bind_eq_ok_iff.2 ⟨_, declareName_of_word (b := ⟨a.name, .actuator⟩) word apart, ?_⟩
  simp only [check_bind_eq_ok_iff, checkField_eq_ok_iff, guard_eq_ok_iff]
  exact ⟨h.component, by simp [h.offered], rfl⟩

theorem InternalEntry.Sound.declare {v : InternalEntry} (h : v.Sound)
    (word : nameReason? v.name = none)
    (apart : Names.Apart ((Binding.mk v.name .internal).entry :: names)) :
    declareInternal names i v = .ok ((Binding.mk v.name .internal).entry :: names) := by
  refine bind_eq_ok_iff.2 ⟨_, declareName_of_word (b := ⟨v.name, .internal⟩) word apart, ?_⟩
  simp only [check_bind_eq_ok_iff, checkField_eq_ok_iff]
  exact ⟨h.key, h.dataType, rfl⟩

/-- A trend finds its source among the names before it. -/
theorem TrendEntry.Sound.declare {t : TrendEntry} (h : t.Sound names)
    (word : nameReason? t.name = none)
    (apart : Names.Apart ((Binding.mk t.name .trend).entry :: names)) :
    declareTrend names i t = .ok ((Binding.mk t.name .trend).entry :: names) := by
  obtain ⟨cls, mem, logged⟩ := h.source
  have found := Names.find?_of_mem apart (List.mem_cons_of_mem _ mem)
  refine bind_eq_ok_iff.2 ⟨_, declareName_of_word (b := ⟨t.name, .trend⟩) word apart, ?_⟩
  simp only [guard_eq_ok_iff]
  exact ⟨h.timesteps, by simp [found, logged], rfl⟩

theorem TableEntry.Sound.declare {t : TableEntry} (h : t.Sound) (word : nameReason? t.name = none)
    (apart : Names.Apart ((Binding.mk t.name .program).entry :: names)) :
    declareTable names i t = .ok ((Binding.mk t.name .program).entry :: names) := by
  have boundaries : checkEach (checkBoundary i) t.rules = .ok () :=
    checkEach_of_forall fun r hr j => if_pos (h.finite r hr)
  refine bind_eq_ok_iff.2 ⟨_, declareName_of_word (b := ⟨t.name, .program⟩) word apart, ?_⟩
  simp only [guard_eq_ok_iff, check_bind_eq_ok_iff]
  exact ⟨by simpa using h.rows, boundaries, rfl⟩

theorem ProgramEntry.Sound.declare {q : ProgramEntry} (h : q.Sound)
    (word : nameReason? q.name = none)
    (apart : Names.Apart ((Binding.mk q.name q.cls).entry :: names)) :
    declareProgram names i q = .ok ((Binding.mk q.name q.cls).entry :: names) := by
  refine bind_eq_ok_iff.2 ⟨_, declareName_of_word (b := ⟨q.name, q.cls⟩) word apart, ?_⟩
  simp only [guard_eq_ok_iff]
  exact ⟨by simpa [ProgramEntry.Sound] using h, rfl⟩

end Sections

theorem checkSchedule_of_sound {part : Section} {i : Nat} {s : Option Schedule}
    (h : ∀ schedule, s = some schedule → schedule.Sound) : checkSchedule part i s = .ok () := by
  unfold checkSchedule
  cases hm : s.bind Schedule.manager with
  | none => rfl
  | some manager =>
    obtain ⟨schedule, hs, named⟩ := Option.bind_eq_some_iff.1 hm
    exact checkField_eq_ok_iff.2 (h schedule hs manager named)

theorem checkLine_of_bound {names : Names} (apart : names.Apart) {program i : Nat}
    {line : LineEntry}
    (bound : ∀ s, line = .run s → (Text.asciiUpper s, .subroutine) ∈ names) :
    checkLine names program i line = .ok () := by
  cases line with
  | run s =>
    have found := Names.find?_of_mem apart (bound s rfl)
    exact if_pos (by simp [found])
  | _ => rfl

/-- Reported variables that fit are accepted, as long as their names are different from each other
    and from those that are taken. -/
theorem checkOutputs_of_sound {taken : List String} {i : Nat} {os : List OutputEntry}
    (sound : ∀ o ∈ os, o.Sound) (apart : (os.map fun o => Text.upper o.name).Nodup)
    (free : ∀ o ∈ os, Text.upper o.name ∉ taken) : checkOutputs taken i os = .ok () := by
  induction os generalizing taken i with
  | nil => rfl
  | cons o os ih =>
    obtain ⟨fits, sound⟩ := List.forall_mem_cons.1 sound
    obtain ⟨new, apart⟩ := List.nodup_cons.1 apart
    obtain ⟨first, free⟩ := List.forall_mem_cons.1 free
    have declared : declareOutput taken i o = .ok (Text.upper o.name :: taken) := by
      simp only [declareOutput, guard_eq_ok_iff, check_bind_eq_ok_iff, checkName_eq_ok_iff,
        checkField_eq_ok_iff]
      exact ⟨by simpa using first, fits.source, fits.name, fits.units, rfl⟩
    rw [checkOutputs, declared]
    refine ih sound apart fun other mem taken' => ?_
    rcases List.mem_cons.1 taken' with same | taken'
    · exact new (List.mem_map.2 ⟨other, mem, same⟩)
    · exact free other mem taken'

/-! ## Projects -/

/-- The names of a project in the order in which the check declares them: internal variables come
    before trends. -/
def checkedBindings (p : Project) : List Binding :=
  p.earlyBindings ++ (p.internals.map (fun v => ⟨v.name, .internal⟩) ++
    (p.trends.map (fun t => ⟨t.name, .trend⟩) ++ p.programBindings))

theorem checkedBindings_perm (p : Project) : p.checkedBindings.Perm p.bindings := by
  refine List.Perm.append_left _ ?_
  rw [← List.append_assoc, ← List.append_assoc]
  exact List.perm_append_comm.append_right p.programBindings

/-- What a trend may log is a sensor or a global variable, and these come first. -/
theorem mem_earlyBindings {p : Project} {e : String × NameClass}
    (mem : e ∈ p.bindings.map Binding.entry) (logged : Project.isLogged e.2 = true) :
    e ∈ p.earlyBindings.map Binding.entry := by
  obtain ⟨b, hb, rfl⟩ := List.mem_map.1 mem
  refine List.mem_map_of_mem ?_
  simp only [bindings, programBindings, List.mem_append, List.mem_map] at hb
  rcases hb with hb | ⟨_, -, rfl⟩ | ⟨_, -, rfl⟩ | ⟨_, -, rfl⟩ | ⟨q, -, rfl⟩
  · exact hb
  · cases logged
  · cases logged
  · cases logged
  · have cls : Project.isLogged q.cls = true := logged
    unfold ProgramEntry.cls at cls
    split at cls <;> cases cls

theorem Sound.apart_checked {p : Project} (h : p.Sound) :
    (Names.with [] p.checkedBindings).Apart := by
  have keys := (p.checkedBindings_perm.map _).nodup_iff.2 h.apart
  rw [Names.Apart, Names.with, List.append_nil, List.map_reverse, List.nodup_reverse, List.map_map]
  exact keys

/-- The sections of a sound project are declared one after the other. -/
theorem Sound.declareAll {p : Project} (h : p.Sound) :
    p.declareAll = .ok (Names.with [] p.checkedBindings) := by
  have words := h.words
  have apart := h.apart_checked
  simp only [bindings, earlyBindings, programBindings, List.forall_mem_append,
    List.forall_mem_map] at words
  obtain ⟨⟨sensorWords, actuatorWords, globalWords⟩, trendWords, internalWords, tableWords,
    programWords⟩ := words
  -- the names before each section, the last one first
  rw [checkedBindings, earlyBindings, programBindings] at apart ⊢
  simp only [Names.with_append] at apart ⊢
  have tables := apart.of_with
  have trends := tables.of_with
  have internals := trends.of_with
  have globals := internals.of_with
  have actuators := globals.of_with
  have sensors := actuators.of_with
  have sensors := declareEach_of_fits declareSensor (i := 0)
    (fun s : SensorEntry => Binding.mk s.name .sensor) (fun _ s => s.Sound)
    (fun word apart fits => fits.declare word apart) sensorWords sensors
    fun s hs _ _ => h.sensors s hs
  have actuators := declareEach_of_fits declareActuator (i := 0)
    (fun a : ActuatorEntry => Binding.mk a.name .actuator) (fun _ a => a.Sound)
    (fun word apart fits => fits.declare word apart) actuatorWords actuators
    fun a ha _ _ => h.actuators a ha
  have globals := declareEach_of_fits declareGlobal (i := 0)
    (fun g : String => Binding.mk g .global) (fun _ _ => True)
    (fun word apart _ => declareName_of_word word apart) globalWords globals
    fun _ _ _ _ => trivial
  have internals := declareEach_of_fits declareInternal (i := 0)
    (fun v : InternalEntry => Binding.mk v.name .internal) (fun _ v => v.Sound)
    (fun word apart fits => fits.declare word apart) internalWords internals
    fun v hv _ _ => h.internals v hv
  have trends := declareEach_of_fits declareTrend (i := 0)
    (fun t : TrendEntry => Binding.mk t.name .trend) TrendEntry.Sound
    (fun word apart fits => fits.declare word apart) trendWords trends fun t ht more sub => by
      -- sensors and global variables are among the names that a trend comes after
      obtain ⟨timesteps, cls, mem, logged⟩ := h.trends t ht
      have early := mem_earlyBindings mem logged
      simp only [earlyBindings, List.map_append, List.mem_append] at early
      exact ⟨timesteps, cls, sub (by simp only [Names.mem_with]; tauto), logged⟩
  have tables := declareEach_of_fits declareTable (i := 0)
    (fun t : TableEntry => Binding.mk t.name .program) (fun _ t => t.Sound)
    (fun word apart fits => fits.declare word apart) tableWords tables
    fun t ht _ _ => h.tables t ht
  have programs := declareEach_of_fits declareProgram (i := 0)
    (fun q : ProgramEntry => Binding.mk q.name q.cls) (fun _ q => q.Sound)
    (fun word apart fits => fits.declare word apart) programWords apart
    fun q hq _ _ => h.programs q hq
  have schedules := h.schedules
  simp only [Project.schedules, List.forall_mem_append, List.mem_filterMap] at schedules
  have tableSchedules : checkEach (fun i t => checkSchedule .tables i t.schedule) p.tables =
      .ok () := checkEach_of_forall fun t ht i => checkSchedule_of_sound fun s hs =>
    schedules.1 s ⟨t, ht, hs⟩
  have programSchedules : checkEach (fun i q => checkSchedule .programs i q.schedule) p.programs =
      .ok () := checkEach_of_forall fun q hq i => checkSchedule_of_sound fun s hs =>
    schedules.2 s ⟨q, hq, hs⟩
  simp only [Project.declareAll, bind_eq_ok_iff]
  exact ⟨_, sensors, _, actuators, _, globals, _, internals, _, trends, _, tables, (),
    tableSchedules, (), programSchedules, programs⟩

theorem version_le_of_check {p : Project} (h : p.check = .ok ()) : p.version ≤ latestVersion := by
  unfold check at h
  exact Nat.not_lt.1 (guard_eq_ok_iff.1 h).1

theorem Sound.check {p : Project} (h : p.Sound) (version : p.version ≤ latestVersion) :
    p.check = .ok () := by
  unfold Project.check
  simp only [guard_eq_ok_iff]
  refine ⟨Nat.not_lt.2 version, bind_eq_ok_iff.2 ⟨_, h.declareAll, ?_⟩⟩
  have bound : ∀ q ∈ p.programs, ∀ s, .run s ∈ q.lines →
      (Text.asciiUpper s, .subroutine) ∈ Names.with [] p.checkedBindings := by
    intro q hq s hs
    have declared := (p.checkedBindings_perm.map Binding.entry).mem_iff.2 (h.runs q hq s hs)
    exact Names.mem_with.2 (.inl declared)
  rw [check_bind_eq_ok_iff]
  refine ⟨checkEach_of_forall fun q hq i => checkEach_of_forall fun line hl j => ?_, ?_⟩
  · exact checkLine_of_bound h.apart_checked fun s hs => bound q hq s (hs ▸ hl)
  · exact checkOutputs_of_sound h.outputs h.reported fun _ _ => List.not_mem_nil

/-- A project passes the check exactly when it is sound and its version is known. -/
theorem check_eq_ok_iff {p : Project} : p.check = .ok () ↔ p.version ≤ latestVersion ∧ p.Sound := by
  constructor
  · intro checked
    exact ⟨version_le_of_check checked, sound_of_check checked⟩
  · rintro ⟨version, sound⟩
    exact sound.check version

end BuildingControl.Project
