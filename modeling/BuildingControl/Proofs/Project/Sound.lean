/-
  BuildingControl.Proofs.Project.Sound

  What the check of a project file establishes (`sound_of_check`): all its names
  are words of the language and no two of them share a key, its texts fit one
  field, every control is offered, every table has rows with finite boundaries,
  and trends and `RUN` lines refer to declarations of the right kind.

  The check declares the sections in an order of its own.  What it leaves behind
  is a list of keys, so it is compared with the names of the project as a set
  without repetitions.
-/
import BuildingControl.Project.Build
import BuildingControl.Proofs.Checking

namespace BuildingControl.Project

open Erl Model

/-! ## The names of a project -/

/-- A name in writing, with what it is declared as. -/
structure Binding where
  name : String
  cls : NameClass

/-- What the spellings of the name have in common, with what it is declared as. -/
def Binding.entry (b : Binding) : String × NameClass :=
  (Text.asciiUpper b.name, b.cls)

/-- The names of sensors, actuators and global variables. -/
def earlyBindings (p : Project) : List Binding :=
  p.sensors.map (fun s => ⟨s.name, .sensor⟩) ++ (p.actuators.map (fun a => ⟨a.name, .actuator⟩) ++
    p.globals.map (fun g => ⟨g, .global⟩))

/-- The names of tables, programs and subroutines. -/
def programBindings (p : Project) : List Binding :=
  p.tables.map (fun t => ⟨t.name, .program⟩) ++ p.programs.map (fun q => ⟨q.name, q.cls⟩)

/-- The names a project declares, in the order in which they get into its model. -/
def bindings (p : Project) : List Binding :=
  p.earlyBindings ++ (p.trends.map (fun t => ⟨t.name, .trend⟩) ++
    (p.internals.map (fun v => ⟨v.name, .internal⟩) ++ p.programBindings))

/-- The schedules of tables and programs. -/
def schedules (p : Project) : List Schedule :=
  p.tables.filterMap TableEntry.schedule ++ p.programs.filterMap ProgramEntry.schedule

/-! ## Sound entries -/

/-- The texts of a sensor fit one field. -/
structure SensorEntry.Sound (s : SensorEntry) : Prop where
  key : fieldReason? s.key = none
  output : fieldReason? s.output = none

/-- The component of an actuator fits one field and offers its control. -/
structure ActuatorEntry.Sound (a : ActuatorEntry) : Prop where
  component : fieldReason? a.component.name = none
  offered : a.component.kind.supports a.control = true

/-- The texts of an internal variable fit one field. -/
structure InternalEntry.Sound (v : InternalEntry) : Prop where
  key : fieldReason? v.key = none
  dataType : fieldReason? v.dataType = none

/-- A trend logs something of what is declared. -/
structure TrendEntry.Sound (names : Names) (t : TrendEntry) : Prop where
  timesteps : t.timesteps ≠ 0
  source : ∃ cls, (Text.asciiUpper t.source, cls) ∈ names ∧ Project.isLogged cls = true

/-- A table has rows, whose boundaries are finite. -/
structure TableEntry.Sound (t : TableEntry) : Prop where
  rows : t.rules ≠ []
  finite : ∀ r ∈ t.rules, r.boundary.isFinite = true

/-- The name of a calling manager fits its field. -/
def Schedule.Sound (s : Schedule) : Prop :=
  ∀ m, s.manager = some m → fieldReason? m = none

/-- Only programs are scheduled. -/
def ProgramEntry.Sound (q : ProgramEntry) : Prop :=
  q.subroutine = true → q.schedule = none

/-- The texts of a reported variable fit their fields. -/
structure OutputEntry.Sound (o : OutputEntry) : Prop where
  source : nameReason? o.source = none
  name : fieldReason? o.name = none
  units : fieldReason? (o.units.getD "") = none

theorem TrendEntry.Sound.mono {names more : Names} {t : TrendEntry} (h : t.Sound names)
    (sub : names ⊆ more) : t.Sound more where
  timesteps := h.timesteps
  source := h.source.imp fun _ both => ⟨sub both.1, both.2⟩

/-! ## Sound projects -/

/-- What a project has to be like, versions aside. -/
structure Sound (p : Project) : Prop where
  words : ∀ b ∈ p.bindings, nameReason? b.name = none
  apart : (p.bindings.map fun b => Text.asciiUpper b.name).Nodup
  sensors : ∀ s ∈ p.sensors, s.Sound
  actuators : ∀ a ∈ p.actuators, a.Sound
  internals : ∀ v ∈ p.internals, v.Sound
  trends : ∀ t ∈ p.trends, t.Sound (p.bindings.map Binding.entry)
  tables : ∀ t ∈ p.tables, t.Sound
  schedules : ∀ s ∈ p.schedules, s.Sound
  programs : ∀ q ∈ p.programs, q.Sound
  runs : ∀ q ∈ p.programs, ∀ s, .run s ∈ q.lines →
    (Text.asciiUpper s, .subroutine) ∈ p.bindings.map Binding.entry
  outputs : ∀ o ∈ p.outputs, o.Sound
  reported : (p.outputs.map fun o => Text.upper o.name).Nodup

/-! ## Single checks -/

theorem checkName_eq_ok_iff {place : Place} {text : String} :
    checkName place text = .ok () ↔ nameReason? text = none := by
  unfold checkName
  split <;> simp_all

theorem checkField_eq_ok_iff {place : Place} {text : String} :
    checkField place text = .ok () ↔ fieldReason? text = none := by
  unfold checkField
  split <;> simp_all

/-- A check on every element is a check on each, wherever it stands. -/
theorem of_checkEach {α : Type} {check : Nat → α → Except Defect Unit} (P : α → Prop)
    (step : ∀ i x, check i x = .ok () → P x) {xs : List α} (h : checkEach check xs = .ok ()) :
    ∀ x ∈ xs, P x := by
  intro x hx
  obtain ⟨i, hi, rfl⟩ := List.mem_iff_getElem.1 hx
  have mem : (xs[i], i) ∈ xs.zipIdx := by
    rw [List.mem_zipIdx_iff_getElem?]
    exact List.getElem?_eq_getElem hi
  exact step i _ (allOk_eq_ok_iff.1 h _ mem)

/-! ## Declaring names -/

/-- No key twice. -/
def Names.Apart (names : Names) : Prop :=
  (names.map Prod.fst).Nodup

/-- A name that is found was declared. -/
theorem Names.mem_of_find? {names : Names} {name : String} {cls : NameClass}
    (h : names.find? name = some cls) : (Text.asciiUpper name, cls) ∈ names := by
  obtain ⟨d, found, rfl⟩ := Option.map_eq_some_iff.1 h
  have key : d.1 = Text.asciiUpper name := by simpa using List.find?_some found
  rw [← key]
  exact List.mem_of_find?_eq_some found

theorem Names.not_mem_of_find? {names : Names} {name : String} (h : names.find? name = none) :
    Text.asciiUpper name ∉ names.map Prod.fst := by
  intro mem
  obtain ⟨d, hd, key⟩ := List.mem_map.1 mem
  have none := List.find?_eq_none.1 (Option.map_eq_none_iff.1 h) d hd
  simp [key] at none

theorem declareName_eq_ok_iff {names next : Names} {cls : NameClass} {place : Place}
    {name : String} : declareName names cls place name = .ok next ↔
      nameReason? name = none ∧ names.find? name = none ∧
        (Binding.mk name cls).entry :: names = next := by
  unfold declareName
  rw [check_bind_eq_ok_iff, checkName_eq_ok_iff]
  refine and_congr_right fun _ => guard_eq_ok_iff.trans (and_congr ?_ ?_)
  · simp
  · exact ⟨Except.ok.inj, congrArg Except.ok⟩

/-- The names after these are declared. -/
structure Extends (names after : Names) (bs : List Binding) : Prop where
  mem_iff : ∀ e, e ∈ after ↔ e ∈ names ∨ e ∈ bs.map Binding.entry
  words : ∀ b ∈ bs, nameReason? b.name = none
  apart : names.Apart → after.Apart ∧ (bs.map fun b => Text.asciiUpper b.name).Nodup ∧
    ∀ b ∈ bs, Text.asciiUpper b.name ∉ names.map Prod.fst

theorem Extends.refl (names : Names) : Extends names names [] where
  mem_iff := by simp
  words := nofun
  apart h := ⟨h, List.nodup_nil, nofun⟩

theorem Extends.single {names next : Names} {cls : NameClass} {place : Place} {name : String}
    (h : declareName names cls place name = .ok next) : Extends names next [⟨name, cls⟩] := by
  obtain ⟨word, free, rfl⟩ := declareName_eq_ok_iff.1 h
  have new := Names.not_mem_of_find? free
  refine ⟨fun e => ?_, by simpa using word, fun apart => ?_⟩
  · rw [List.mem_cons, List.map_singleton, List.mem_singleton, or_comm]
  · exact ⟨List.nodup_cons.2 ⟨new, apart⟩, by simp, by simpa using new⟩

theorem Extends.trans {names next after : Names} {bs cs : List Binding}
    (first : Extends names next bs) (later : Extends next after cs) :
    Extends names after (bs ++ cs) where
  mem_iff e := by
    rw [later.mem_iff, first.mem_iff, List.map_append, List.mem_append, or_assoc]
  words b hb := (List.mem_append.1 hb).elim (first.words b) (later.words b)
  apart h := by
    obtain ⟨apart, nodup, new⟩ := first.apart h
    obtain ⟨apart', nodup', new'⟩ := later.apart apart
    -- what came in first is in the way of what comes later
    have old (b : Binding) (hb : b ∈ bs) : Text.asciiUpper b.name ∈ next.map Prod.fst :=
      List.mem_map_of_mem (f := Prod.fst) ((first.mem_iff _).2 (.inr (List.mem_map_of_mem hb)))
    have kept (e : String × NameClass) (he : e ∈ names) : e.1 ∈ next.map Prod.fst :=
      List.mem_map_of_mem ((first.mem_iff e).2 (.inl he))
    refine ⟨apart', ?_, fun b hb => ?_⟩
    · rw [List.map_append, List.nodup_append]
      refine ⟨nodup, nodup', ?_⟩
      intro k hk l hl same
      obtain ⟨b, hb, rfl⟩ := List.mem_map.1 hk
      obtain ⟨c, hc, rfl⟩ := List.mem_map.1 hl
      exact new' c hc (same ▸ old b hb)
    · rcases List.mem_append.1 hb with hb | hb
      · exact new b hb
      · intro mem
        obtain ⟨e, he, key⟩ := List.mem_map.1 mem
        exact new' b hb (key ▸ kept e he)

/-- A section declares one name for each entry.  What an entry has to be like may depend on the
    names so far, as long as more names do no harm. -/
theorem extends_of_declareEach {α : Type} {declare : Names → Nat → α → Except Defect Names}
    (binding : α → Binding) (Fits : Names → α → Prop)
    (grows : ∀ {names more x}, names ⊆ more → Fits names x → Fits more x)
    (step : ∀ {names i x next}, declare names i x = .ok next →
      Extends names next [binding x] ∧ Fits next x)
    {names after : Names} {i : Nat} {xs : List α}
    (h : declareEach declare names i xs = .ok after) :
    Extends names after (xs.map binding) ∧ ∀ x ∈ xs, Fits after x := by
  induction xs generalizing names i with
  | nil =>
    cases h
    exact ⟨.refl _, nofun⟩
  | cons x xs ih =>
    rw [declareEach] at h
    split at h
    · cases h
    · next next declared =>
      obtain ⟨first, fits⟩ := step declared
      obtain ⟨rest, later⟩ := ih h
      have kept : next ⊆ after := fun e he => (rest.mem_iff e).2 (.inl he)
      exact ⟨first.trans rest, List.forall_mem_cons.2 ⟨grows kept fits, later⟩⟩

/-! ## Sections -/

section Sections

variable {names next : Names} {i : Nat}

theorem sound_of_declareSensor {s : SensorEntry} (h : declareSensor names i s = .ok next) :
    Extends names next [⟨s.name, .sensor⟩] ∧ s.Sound := by
  unfold declareSensor at h
  obtain ⟨_, declared, h⟩ := bind_eq_ok_iff.1 h
  simp only [check_bind_eq_ok_iff, checkField_eq_ok_iff] at h
  obtain ⟨key, output, h⟩ := h
  cases h
  exact ⟨.single declared, key, output⟩

theorem sound_of_declareActuator {a : ActuatorEntry} (h : declareActuator names i a = .ok next) :
    Extends names next [⟨a.name, .actuator⟩] ∧ a.Sound := by
  unfold declareActuator at h
  obtain ⟨_, declared, h⟩ := bind_eq_ok_iff.1 h
  simp only [check_bind_eq_ok_iff, checkField_eq_ok_iff, guard_eq_ok_iff] at h
  obtain ⟨component, offered, h⟩ := h
  cases h
  exact ⟨.single declared, component, by simpa using offered⟩

theorem sound_of_declareInternal {v : InternalEntry}
    (h : declareInternal names i v = .ok next) :
    Extends names next [⟨v.name, .internal⟩] ∧ v.Sound := by
  unfold declareInternal at h
  obtain ⟨_, declared, h⟩ := bind_eq_ok_iff.1 h
  simp only [check_bind_eq_ok_iff, checkField_eq_ok_iff] at h
  obtain ⟨key, dataType, h⟩ := h
  cases h
  exact ⟨.single declared, key, dataType⟩

theorem sound_of_declareTrend {t : TrendEntry} (h : declareTrend names i t = .ok next) :
    Extends names next [⟨t.name, .trend⟩] ∧ t.Sound next := by
  unfold declareTrend at h
  obtain ⟨_, declared, h⟩ := bind_eq_ok_iff.1 h
  simp only [guard_eq_ok_iff] at h
  obtain ⟨timesteps, source, h⟩ := h
  cases h
  simp only [Bool.not_eq_true', Bool.not_eq_false, Option.any_eq_true] at source
  obtain ⟨cls, found, logged⟩ := source
  exact ⟨.single declared, timesteps, cls, Names.mem_of_find? found, logged⟩

theorem sound_of_declareTable {t : TableEntry} (h : declareTable names i t = .ok next) :
    Extends names next [⟨t.name, .program⟩] ∧ t.Sound := by
  unfold declareTable at h
  obtain ⟨_, declared, h⟩ := bind_eq_ok_iff.1 h
  simp only [guard_eq_ok_iff, check_bind_eq_ok_iff] at h
  obtain ⟨rows, boundaries, h⟩ := h
  cases h
  refine ⟨.single declared, by simpa using rows, of_checkEach _ (fun j r hr => ?_) boundaries⟩
  unfold checkBoundary at hr
  split at hr
  · assumption
  · cases hr

theorem sound_of_declareProgram {q : ProgramEntry} (h : declareProgram names i q = .ok next) :
    Extends names next [⟨q.name, q.cls⟩] ∧ q.Sound := by
  unfold declareProgram at h
  obtain ⟨_, declared, h⟩ := bind_eq_ok_iff.1 h
  simp only [guard_eq_ok_iff] at h
  obtain ⟨unscheduled, h⟩ := h
  cases h
  exact ⟨.single declared, by simpa [ProgramEntry.Sound] using unscheduled⟩

end Sections

theorem of_checkSchedule {part : Section} {i : Nat} {s : Option Schedule}
    (h : checkSchedule part i s = .ok ()) :
    ∀ schedule, s = some schedule → schedule.Sound := by
  rintro schedule rfl m manager
  simp only [checkSchedule, Option.bind_some, manager] at h
  exact checkField_eq_ok_iff.1 h

theorem of_checkLine {names : Names} {program i : Nat} {line : LineEntry}
    (h : checkLine names program i line = .ok ()) :
    ∀ s, line = .run s → (Text.asciiUpper s, .subroutine) ∈ names := by
  rintro s rfl
  rw [checkLine] at h
  split at h
  · next found => exact Names.mem_of_find? (by simpa using found)
  · cases h

theorem of_checkLines {names : Names} {qs : List ProgramEntry}
    (h : checkEach (fun i q => checkEach (checkLine names i) q.lines) qs = .ok ()) :
    ∀ q ∈ qs, ∀ s, .run s ∈ q.lines → (Text.asciiUpper s, .subroutine) ∈ names := by
  have program (i : Nat) (q : ProgramEntry)
      (lines : checkEach (checkLine names i) q.lines = .ok ()) :
      ∀ s, .run s ∈ q.lines → (Text.asciiUpper s, .subroutine) ∈ names :=
    fun s mem => of_checkEach (fun line => ∀ s, line = .run s → (Text.asciiUpper s, .subroutine) ∈ names)
      (fun _ _ => of_checkLine) lines _ mem s rfl
  exact of_checkEach _ program h

/-- Reported variables have names of their own, also apart from those that are taken. -/
theorem of_checkOutputs {taken : List String} {i : Nat} {os : List OutputEntry}
    (h : checkOutputs taken i os = .ok ()) :
    (∀ o ∈ os, o.Sound) ∧ (os.map fun o => Text.upper o.name).Nodup ∧ ∀ o ∈ os, Text.upper o.name ∉ taken := by
  induction os generalizing taken i with
  | nil => exact ⟨nofun, List.nodup_nil, nofun⟩
  | cons o os ih =>
    rw [checkOutputs] at h
    split at h
    · cases h
    · next next declared =>
      obtain ⟨fields, nodup, free⟩ := ih h
      simp only [declareOutput, guard_eq_ok_iff, check_bind_eq_ok_iff, checkName_eq_ok_iff,
        checkField_eq_ok_iff] at declared
      obtain ⟨new, source, name, units, declared⟩ := declared
      cases declared
      refine ⟨List.forall_mem_cons.2 ⟨⟨source, name, units⟩, fields⟩, ?_, ?_⟩
      · refine List.nodup_cons.2 ⟨fun mem => ?_, nodup⟩
        obtain ⟨other, hother, same⟩ := List.mem_map.1 mem
        exact free other hother (same ▸ List.mem_cons_self)
      · refine List.forall_mem_cons.2 ⟨by simpa using new, fun other hother mem => ?_⟩
        exact free other hother (List.mem_cons_of_mem _ mem)

/-! ## Projects -/

/-- What the declarations of a project come to: its names, and what each entry has to be like. -/
theorem of_declareAll {p : Project} {names : Names} (h : p.declareAll = .ok names) :
    ∃ bs, Extends [] names bs ∧ bs.Perm p.bindings ∧ (∀ s ∈ p.sensors, s.Sound) ∧
      (∀ a ∈ p.actuators, a.Sound) ∧ (∀ v ∈ p.internals, v.Sound) ∧
      (∀ t ∈ p.trends, t.Sound names) ∧ (∀ t ∈ p.tables, t.Sound) ∧
      (∀ s ∈ p.schedules, s.Sound) ∧ ∀ q ∈ p.programs, q.Sound := by
  unfold declareAll at h
  obtain ⟨n₁, h₁, h⟩ := bind_eq_ok_iff.1 h
  obtain ⟨n₂, h₂, h⟩ := bind_eq_ok_iff.1 h
  obtain ⟨n₃, h₃, h⟩ := bind_eq_ok_iff.1 h
  obtain ⟨n₄, h₄, h⟩ := bind_eq_ok_iff.1 h
  obtain ⟨n₅, h₅, h⟩ := bind_eq_ok_iff.1 h
  obtain ⟨n₆, h₆, h⟩ := bind_eq_ok_iff.1 h
  rw [check_bind_eq_ok_iff, check_bind_eq_ok_iff] at h
  obtain ⟨tableSchedules, programSchedules, h₇⟩ := h
  obtain ⟨sensors, hs⟩ := extends_of_declareEach (fun s => ⟨s.name, .sensor⟩)
    (fun _ s => s.Sound) (fun _ h => h) sound_of_declareSensor h₁
  obtain ⟨actuators, ha⟩ := extends_of_declareEach (fun a => ⟨a.name, .actuator⟩)
    (fun _ a => a.Sound) (fun _ h => h) sound_of_declareActuator h₂
  obtain ⟨globals, -⟩ := extends_of_declareEach (fun g => ⟨g, .global⟩)
    (fun _ _ => True) (fun _ h => h) (fun h => ⟨.single h, trivial⟩) h₃
  obtain ⟨internals, hv⟩ := extends_of_declareEach (fun v => ⟨v.name, .internal⟩)
    (fun _ v => v.Sound) (fun _ h => h) sound_of_declareInternal h₄
  obtain ⟨trends, ht⟩ := extends_of_declareEach (fun t => ⟨t.name, .trend⟩)
    TrendEntry.Sound (fun sub h => h.mono sub) sound_of_declareTrend h₅
  obtain ⟨tables, hr⟩ := extends_of_declareEach (fun t => ⟨t.name, .program⟩)
    (fun _ t => t.Sound) (fun _ h => h) sound_of_declareTable h₆
  obtain ⟨programs, hq⟩ := extends_of_declareEach (fun q => ⟨q.name, q.cls⟩)
    (fun _ q => q.Sound) (fun _ h => h) sound_of_declareProgram h₇
  have early := sensors.trans (actuators.trans globals)
  have late := tables.trans programs
  refine ⟨_, early.trans (internals.trans (trends.trans late)), ?_, hs, ha, hv, ?_, hr, ?_, hq⟩
  · -- the check takes internal variables before trends
    show (p.earlyBindings ++ (_ ++ (_ ++ p.programBindings))).Perm _
    refine List.Perm.append_left _ ?_
    rw [← List.append_assoc, ← List.append_assoc]
    exact List.perm_append_comm.append_right p.programBindings
  · exact fun t mem => (ht t mem).mono fun e he => (late.mem_iff e).2 (.inl he)
  · intro s hs
    rcases List.mem_append.1 hs with hs | hs
    · obtain ⟨t, mem, schedule⟩ := List.mem_filterMap.1 hs
      exact of_checkEach (fun t => ∀ s, t.schedule = some s → s.Sound)
        (fun _ _ => of_checkSchedule) tableSchedules t mem s schedule
    · obtain ⟨q, mem, schedule⟩ := List.mem_filterMap.1 hs
      exact of_checkEach (fun q => ∀ s, q.schedule = some s → s.Sound)
        (fun _ _ => of_checkSchedule) programSchedules q mem s schedule

/-- A project that passes the check is sound. -/
theorem sound_of_check {p : Project} (h : p.check = .ok ()) : p.Sound := by
  unfold check at h
  simp only [guard_eq_ok_iff] at h
  obtain ⟨names, declared, h⟩ := bind_eq_ok_iff.1 h.2
  obtain ⟨lines, outputs⟩ := check_bind_eq_ok_iff.1 h
  obtain ⟨bs, all, perm, sensors, actuators, internals, trends, tables, schedules, programs⟩ :=
    of_declareAll declared
  obtain ⟨_, nodup, -⟩ := all.apart List.nodup_nil
  obtain ⟨fields, reported, -⟩ := of_checkOutputs outputs
  have entries : names ⊆ p.bindings.map Binding.entry := by
    intro e he
    have among := ((all.mem_iff e).1 he).resolve_left List.not_mem_nil
    exact (perm.map Binding.entry).mem_iff.1 among
  exact {
    words := fun b hb => all.words b (perm.mem_iff.2 hb)
    apart := (perm.map _).nodup_iff.1 nodup
    sensors, actuators, internals, tables, schedules, programs, reported
    trends := fun t ht => (trends t ht).mono entries
    runs := fun q hq s hs => entries (of_checkLines lines q hq s hs)
    outputs := fields }

end BuildingControl.Project
