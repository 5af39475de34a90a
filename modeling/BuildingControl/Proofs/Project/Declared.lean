/-
  BuildingControl.Proofs.Project.Declared

  The declarations of a sound project are accepted by its model.  Each entry
  becomes one valid object that declares the name of the entry (`Binding.Into`),
  and the names are pairwise different.  So the variables come in without a
  fault (`exists_declaredModel`), and adding tables and programs can go wrong
  for two reasons only: the text of a program, and a calling manager at two
  points (`addItems_eq_error`).
-/
import BuildingControl.Proofs.Erl.Fault
import BuildingControl.Proofs.Erl.Name
import BuildingControl.Proofs.Model.Coherent
import BuildingControl.Proofs.Project.Schedule
import BuildingControl.Proofs.Project.Sound

namespace BuildingControl

open Erl Model

/-! ## Lists of steps -/

/-- Steps that succeed one by one. -/
theorem exists_allOk_map {ε α β γ : Type} {f : α → Except ε β} (g : α → γ) {R : γ → β → Prop}
    {xs : List α} (h : ∀ x ∈ xs, ∃ y, f x = .ok y ∧ R (g x) y) :
    ∃ ys, AllOk (xs.map f) ys ∧ List.Forall₂ R (xs.map g) ys := by
  induction xs with
  | nil => exact ⟨[], rfl, .nil⟩
  | cons x xs ih =>
    obtain ⟨⟨y, hy, first⟩, rest⟩ := List.forall_mem_cons.1 h
    obtain ⟨ys, hys, later⟩ := ih rest
    refine ⟨y :: ys, ?_, .cons first later⟩
    rw [AllOk] at hys ⊢
    rw [List.map_cons, List.map_cons, hy, hys]

/-- Steps put together, with their results. -/
theorem AllOk.append {ε α : Type} {steps more : List (Except ε α)} {xs ys : List α}
    (first : AllOk steps xs) (later : AllOk more ys) : AllOk (steps ++ more) (xs ++ ys) :=
  allOk_append_iff.2 ⟨xs, ys, first, later, rfl⟩

namespace Model

theorem declareAll_append (m : Model) (ds es : List Declaration) :
    (m.declareAll (ds ++ es)).model? =
      (m.declareAll ds).model? >>= fun n => (n.declareAll es).model? := by
  induction ds generalizing m with
  | nil => rfl
  | cons d ds ih =>
    rw [List.cons_append, declareAll, declareAll]
    cases m.declare d with
    | ok n => exact ih n
    | error fault => rfl

/-! ## Refused objects -/

/-- A field that fits is no reason for a fault. -/
theorem onFault_requireField {P : Erl.Fault → Prop} {field : HostField} {text : String}
    (fits : fieldReason? text = none) {rest : Except Erl.Fault Unit} (h : OnFault P rest) :
    OnFault P (requireField field text >>= fun _ => rest) := by
  rw [requireField_eq_ok_iff.2 fits]
  exact h

/-- An object that is valid is refused for its name alone. -/
theorem duplicateName_of_admit? {m : Model} {d : Declaration} (valid : d.Valid) :
    OnFault (fun fault => ∃ name, fault = .duplicateName name) (m.admit? d) := by
  have free (taken : Bool) (name : String) :
      OnFault (fun fault => ∃ name, fault = .duplicateName name)
        (refuseIf taken (.duplicateName name)) := by
    unfold refuseIf
    split
    · exact onFault_error.2 ⟨name, rfl⟩
    · exact onFault_ok _
  have fits {field : HostField} {text : String} (mem : (field, text) ∈ d.fields) :
      fieldReason? text = none := valid.fields (field, text) mem
  cases d with
  | sensor s =>
    have key := fits (.head _)
    have output := fits (.tail _ (.head _))
    exact onFault_requireField key (onFault_requireField output (free _ _))
  | actuator a =>
    have component := fits (.head _)
    have type := fits (.tail _ (.head _))
    have control := fits (.tail _ (.tail _ (.head _)))
    exact onFault_requireField component
      (onFault_requireField type (onFault_requireField control (free _ _)))
  | global name => exact free _ _
  | trend t =>
    have timesteps : (t.timesteps == 0) = false := by simpa using valid.logged t rfl
    rw [admit?, timesteps]
    exact free _ _
  | internal v =>
    have key := fits (.head _)
    have dataType := fits (.tail _ (.head _))
    exact onFault_requireField key (onFault_requireField dataType (free _ _))
  | construction c => exact onFault_requireField (fits (.head _)) (free _ _)
  | output o =>
    have name := fits (.head _)
    have units := fits (.tail _ (.head _))
    exact onFault_requireField name (onFault_requireField units (free _ _))
  | program q => exact free _ _
  | subroutine q => exact free _ _
  | manager c => exact onFault_requireField (fits (.head _)) (free _ _)
  | request r =>
    have key := fits (.head _)
    have variableName := fits (.tail _ (.head _))
    refine onFault_requireField key ?_
    rw [requireField_eq_ok_iff.2 variableName]
    exact onFault_ok _

/-- Valid objects are refused for a name alone. -/
theorem duplicateName_of_declareAll {m : Model} {ds : List Declaration}
    (valid : ∀ d ∈ ds, d.Valid) :
    OnFault (fun fault => ∃ name, fault = .duplicateName name) (m.declareAll ds).model? := by
  induction ds generalizing m with
  | nil => exact onFault_ok _
  | cons d ds ih =>
    obtain ⟨first, rest⟩ := List.forall_mem_cons.1 valid
    rw [Model.declareAll]
    cases declared : m.declare d with
    | ok n => exact ih rest
    | error fault => exact onFault_error.2 ((duplicateName_of_admit? first).map _ fault declared)

end Model

namespace Project

/-! ## Names as declarations -/

/-- A valid object that declares a name in writing. -/
structure Binding.Into (b : Binding) (d : Declaration) : Prop where
  valid : d.Valid
  declares : ∃ n : Name, d.binding? = some (n, b.cls) ∧ n.text = b.name

theorem exists_name {text : String} (h : nameReason? text = none) :
    ∃ n, Name.ofText? text = .ok n ∧ n.text = text :=
  ⟨⟨text, h⟩, Name.ofText?_eq_ok_iff.2 rfl, rfl⟩

theorem SensorEntry.Sound.exists_declaration {s : SensorEntry} (h : s.Sound)
    (word : nameReason? s.name = none) :
    ∃ d, s.declaration = .ok d ∧ (Binding.mk s.name .sensor).Into d := by
  obtain ⟨n, hn, text⟩ := exists_name word
  refine ⟨.sensor ⟨n, s.key, s.output⟩, ?_, ⟨?_, nofun⟩, n, rfl, text⟩
  · rw [SensorEntry.declaration, hn]
    rfl
  · simp [Declaration.fields, h.key, h.output]

/-- The texts that go with an offered control fit their fields. -/
theorem exists_actuatorType (kind : ComponentKind) : ∀ control ∈ kind.controls,
    ∃ type, kind.actuatorType? = some type ∧ fieldReason? type = none ∧
      fieldReason? control = none := by
  cases kind with
  | schedule form =>
    cases form <;>
      exact List.forall_mem_cons.2 ⟨⟨_, rfl, by decide, by decide⟩, nofun⟩
  | _ => simp [ComponentKind.controls, ComponentKind.actuatorType?] <;> decide +kernel

theorem ActuatorEntry.Sound.exists_declaration {a : ActuatorEntry} (h : a.Sound)
    (word : nameReason? a.name = none) :
    ∃ d, a.declaration = .ok d ∧ (Binding.mk a.name .actuator).Into d := by
  obtain ⟨n, hn, text⟩ := exists_name word
  obtain ⟨control, found⟩ := Option.isSome_iff_exists.1 h.offered
  obtain ⟨type, htype, typeFits, controlFits⟩ :=
    exists_actuatorType a.component.kind control (List.mem_of_find?_eq_some found)
  refine ⟨.actuator ⟨n, a.component.name, type, control⟩, ?_, ⟨?_, nofun⟩, n, rfl, text⟩
  · simp only [ActuatorEntry.declaration, hn, Actuator.ofComponent, htype, found]
    rfl
  · simp [Declaration.fields, h.component, typeFits, controlFits]

theorem exists_globalDeclaration {name : String} (word : nameReason? name = none) :
    ∃ d, globalDeclaration name = .ok d ∧ (Binding.mk name .global).Into d := by
  obtain ⟨n, hn, text⟩ := exists_name word
  refine ⟨.global n, ?_, ⟨nofun, nofun⟩, n, rfl, text⟩
  rw [globalDeclaration, hn]
  rfl

theorem InternalEntry.Sound.exists_declaration {v : InternalEntry} (h : v.Sound)
    (word : nameReason? v.name = none) :
    ∃ d, v.declaration = .ok d ∧ (Binding.mk v.name .internal).Into d := by
  obtain ⟨n, hn, text⟩ := exists_name word
  refine ⟨.internal ⟨n, v.key, v.dataType⟩, ?_, ⟨?_, nofun⟩, n, rfl, text⟩
  · rw [InternalEntry.declaration, hn]
    rfl
  · simp [Declaration.fields, h.key, h.dataType]

theorem TrendEntry.Sound.exists_declaration {names : Names} {t : TrendEntry} (h : t.Sound names)
    (known : ∀ e ∈ names, ∃ name, e.1 = Text.asciiUpper name ∧ nameReason? name = none)
    (word : nameReason? t.name = none) :
    ∃ d, t.declaration = .ok d ∧ (Binding.mk t.name .trend).Into d := by
  obtain ⟨n, hn, text⟩ := exists_name word
  obtain ⟨cls, mem, -⟩ := h.source
  obtain ⟨name, key, valid⟩ := known _ mem
  -- the source is another spelling of a declared name
  have source : nameReason? t.source = none := by
    rw [nameReason?_eq_of_asciiUpper key, valid]
  obtain ⟨s, hs, -⟩ := exists_name source
  refine ⟨.trend ⟨n, s, t.timesteps⟩, ?_, ⟨nofun, ?_⟩, n, rfl, text⟩
  · rw [TrendEntry.declaration, hn, hs]
    rfl
  · rintro _ ⟨⟩
    exact h.timesteps

/-! ## Variables -/

/-- The model with steps declared, if none of them is a fault. -/
theorem declareEntries_of_allOk {α : Type} {declaration : α → Except Erl.Fault Declaration}
    {xs : List α} {ds : List Declaration} (h : AllOk (xs.map declaration) ds) (m : Model) :
    declareEntries declaration m xs = (m.declareAll ds).model? := by
  induction xs generalizing m ds with
  | nil =>
    rw [List.map_nil, allOk_nil_iff] at h
    rw [h]
    rfl
  | cons x xs ih =>
    cases ds with
    | nil => cases h
    | cons d ds =>
      obtain ⟨first, rest⟩ := List.cons.inj h
      rw [declareEntries, first, Model.declareAll]
      dsimp only
      cases m.declare d with
      | ok n => exact ih rest n
      | error fault => rfl

/-- The names of the variables of a project. -/
def variableBindings (p : Project) : List Binding :=
  p.earlyBindings ++ (p.trends.map (fun t => ⟨t.name, .trend⟩) ++
    p.internals.map (fun v => ⟨v.name, .internal⟩))

/-- The declarations of the variables of a project. -/
def variableSteps (p : Project) : List (Except Erl.Fault Declaration) :=
  (p.sensors.map SensorEntry.declaration ++ (p.actuators.map ActuatorEntry.declaration ++
    p.globals.map globalDeclaration)) ++ (p.trends.map TrendEntry.declaration ++
    p.internals.map InternalEntry.declaration)

theorem bindings_eq (p : Project) : p.bindings = p.variableBindings ++ p.programBindings := by
  simp [bindings, variableBindings]

theorem declaredModel_of_allOk {p : Project} {ds : List Declaration}
    (h : AllOk p.variableSteps ds) :
    p.declaredModel = ((Model.empty.withReporting p.reporting).declareAll ds).model? := by
  simp only [variableSteps, allOk_append_iff] at h
  obtain ⟨_, _, ⟨ss, _, sensors, ⟨as, gs, actuators, globals, rfl⟩, rfl⟩,
    ⟨ts, vs, trends, internals, rfl⟩, rfl⟩ := h
  simp only [declaredModel, declareEntries_of_allOk sensors, declareEntries_of_allOk actuators,
    declareEntries_of_allOk globals, declareEntries_of_allOk trends,
    declareEntries_of_allOk internals, declareAll_append, bind_assoc]

/-- The variables of a sound project become objects one by one. -/
theorem Sound.exists_variables {p : Project} (h : p.Sound) :
    ∃ ds, AllOk p.variableSteps ds ∧ List.Forall₂ Binding.Into p.variableBindings ds := by
  have words := h.words
  simp only [bindings, earlyBindings, List.forall_mem_append, List.forall_mem_map] at words
  obtain ⟨⟨sensorWords, actuatorWords, globalWords⟩, trendWords, internalWords, -⟩ := words
  have known : ∀ e ∈ p.bindings.map Binding.entry,
      ∃ name, e.1 = Text.asciiUpper name ∧ nameReason? name = none := by
    intro e he
    obtain ⟨b, hb, rfl⟩ := List.mem_map.1 he
    exact ⟨b.name, rfl, h.words b hb⟩
  obtain ⟨ss, sensors, intoSensors⟩ := exists_allOk_map (fun s => Binding.mk s.name .sensor)
    fun s hs => (h.sensors s hs).exists_declaration (sensorWords s hs)
  obtain ⟨as, actuators, intoActuators⟩ := exists_allOk_map (fun a => Binding.mk a.name .actuator)
    fun a ha => (h.actuators a ha).exists_declaration (actuatorWords a ha)
  obtain ⟨gs, globals, intoGlobals⟩ := exists_allOk_map (fun g => Binding.mk g .global)
    fun g hg => exists_globalDeclaration (globalWords g hg)
  obtain ⟨ts, trends, intoTrends⟩ := exists_allOk_map (fun t => Binding.mk t.name .trend)
    fun t ht => (h.trends t ht).exists_declaration known (trendWords t ht)
  obtain ⟨vs, internals, intoInternals⟩ := exists_allOk_map (fun v => Binding.mk v.name .internal)
    fun v hv => (h.internals v hv).exists_declaration (internalWords v hv)
  refine ⟨_, (sensors.append (actuators.append globals)).append (trends.append internals), ?_⟩
  exact List.rel_append (List.rel_append intoSensors (List.rel_append intoActuators intoGlobals))
    (List.rel_append intoTrends intoInternals)

/-! ## Programs -/

/-- A program of a project, with what is to be done with it. -/
structure Item where
  program : Program
  subroutine : Bool
  schedule : Option Schedule

/-- The object that the program becomes. -/
def Item.declaration (x : Item) : Declaration :=
  if x.subroutine then .subroutine x.program else .program x.program

/-- The program as the one of its schedule, if it has one. -/
def Item.scheduled? (x : Item) : Option (Name × Schedule) :=
  x.schedule.map fun s => (x.program.name, s)

/-- The program of a table. -/
def TableEntry.item (t : TableEntry) : Except Erl.Fault Item :=
  t.program.map fun program => ⟨program, false, t.schedule⟩

/-- The program of an entry; subroutines are never scheduled. -/
def ProgramEntry.item (q : ProgramEntry) : Except Erl.Fault Item :=
  q.program.map fun program => ⟨program, q.subroutine, if q.subroutine then none else q.schedule⟩

/-- The programs of a project, in the order in which they get into its model. -/
def items (p : Project) : List (Except Erl.Fault Item) :=
  p.tables.map TableEntry.item ++ p.programs.map ProgramEntry.item

/-- One more program, unless its text is at fault. -/
def Progress.addItem (g : Progress) (step : Except Erl.Fault Item) : Except Fault Progress := do
  let x ← step.mapError .program
  let model ← (g.model.declare x.declaration).mapError .program
  let managers ← (scheduleIfAny x.schedule x.program.name g.managers).mapError .file
  return ⟨model, managers⟩

theorem addItem_table (g : Progress) (t : TableEntry) : g.addItem t.item = g.addTable t := by
  unfold Progress.addItem TableEntry.item Progress.addTable
  cases t.program <;> rfl

theorem addItem_program (g : Progress) (q : ProgramEntry) : g.addItem q.item = g.addProgram q := by
  unfold Progress.addItem ProgramEntry.item Progress.addProgram
  cases q.program with
  | error fault => rfl
  | ok program => cases q.subroutine <;> rfl

theorem each_append {α : Type} (step : Progress → α → Except Fault Progress) (g : Progress)
    (xs ys : List α) : Progress.each step g (xs ++ ys) =
      Progress.each step g xs >>= fun g => Progress.each step g ys := by
  induction xs generalizing g with
  | nil => rfl
  | cons x xs ih =>
    rw [List.cons_append, Progress.each, Progress.each]
    cases step g x with
    | error fault => rfl
    | ok next => exact ih next

theorem each_map {α β : Type} (step : Progress → β → Except Fault Progress) (f : α → β)
    (g : Progress) (xs : List α) :
    Progress.each step g (xs.map f) = Progress.each (fun g x => step g (f x)) g xs := by
  induction xs generalizing g with
  | nil => rfl
  | cons x xs ih =>
    rw [List.map_cons, Progress.each, Progress.each]
    cases step g (f x) with
    | error fault => rfl
    | ok next => exact ih next

/-- Tables and programs are added in one pass. -/
theorem each_items (p : Project) (g : Progress) : Progress.each Progress.addItem g p.items =
    Progress.each Progress.addTable g p.tables >>= fun g =>
      Progress.each Progress.addProgram g p.programs := by
  simp only [items, each_append, each_map, addItem_table, addItem_program]

/-- A program that is added was read, is declared, and is put into the manager of its schedule. -/
theorem Progress.addItem_eq_ok {g next : Progress} {step : Except Erl.Fault Item}
    {done : List (Name × Schedule)} (managed : Managed done g.managers)
    (h : g.addItem step = .ok next) : ∃ x, step = .ok x ∧
      g.model.declare x.declaration = .ok next.model ∧
      Managed (done ++ x.scheduled?.toList) next.managers := by
  simp only [addItem, bind_eq_ok_iff, mapError_eq_ok_iff] at h
  obtain ⟨x, hx, model, declared, managers, scheduled, h⟩ := h
  cases h
  refine ⟨x, hx, declared, ?_⟩
  unfold scheduleIfAny at scheduled
  unfold Item.scheduled?
  cases hs : x.schedule with
  | none =>
    rw [hs] at scheduled
    cases scheduled
    simpa using managed
  | some s =>
    rw [hs] at scheduled
    exact managed.schedule scheduled

theorem Item.into (x : Item) :
    (Binding.mk x.program.name.text (if x.subroutine then .subroutine else .program)).Into
      x.declaration := by
  unfold declaration
  split
  · exact ⟨⟨nofun, nofun⟩, x.program.name, rfl, rfl⟩
  · exact ⟨⟨nofun, nofun⟩, x.program.name, rfl, rfl⟩

theorem Item.slot?_declaration (x : Item) :
    x.declaration.slot? = some (.name x.program.name.key) := by
  unfold declaration
  split <;> rfl

/-- Whether a program with a free name is added depends on its schedule alone. -/
theorem Progress.addItem_of_free {g : Progress} {x : Item}
    (free : g.model.taken (.name x.program.name.key) = false) : g.addItem (.ok x) =
      ((scheduleIfAny x.schedule x.program.name g.managers).mapError .file).map
        fun managers => ⟨g.model.push x.declaration, managers⟩ := by
  have isFree : g.model.Free x.declaration := by
    intro s hs
    rw [x.slot?_declaration] at hs
    cases hs
    exact free
  have declared : g.model.declare x.declaration = .ok (g.model.push x.declaration) :=
    declare_eq_ok_iff.2 ⟨x.into.valid, isFree, rfl⟩
  have steps : g.addItem (.ok x) =
      (g.model.declare x.declaration).mapError .program >>= fun model =>
        (scheduleIfAny x.schedule x.program.name g.managers).mapError .file >>= fun managers =>
          pure (⟨model, managers⟩ : Progress) := rfl
  rw [steps, declared]
  cases scheduleIfAny x.schedule x.program.name g.managers <;> rfl

/-- A program that is not added is at fault itself or, if its name is free, scheduled at another
    point than a program before it. -/
theorem Progress.addItem_eq_error {g : Progress} {step : Except Erl.Fault Item} {fault : Fault}
    {done : List (Name × Schedule)} (managed : Managed done g.managers)
    (free : ∀ x, step = .ok x → g.model.taken (.name x.program.name.key) = false)
    (h : g.addItem step = .error fault) :
    (∃ f, step = .error f ∧ fault = .program f) ∨
    ∃ d x s t, fault = .file d ∧ step = .ok x ∧ x.schedule = some s ∧ t ∈ done.map Prod.snd ∧
      Text.sameLetters s.managerName t.managerName = true ∧ s.callingPoint ≠ t.callingPoint := by
  cases step with
  | error f =>
    cases h
    exact .inl ⟨f, rfl, rfl⟩
  | ok x =>
    rw [addItem_of_free (free x rfl)] at h
    unfold scheduleIfAny at h
    cases hs : x.schedule with
    | none =>
      rw [hs] at h
      cases h
    | some s =>
      rw [hs] at h
      cases failed : scheduleProgram s x.program.name g.managers with
      | ok managers => simp [failed, Except.mapError, Except.map] at h
      | error d =>
        simp only [failed, Except.mapError, Except.map, Except.error.injEq] at h
        obtain ⟨t, ht, same, point⟩ := managed.exists_of_eq_error failed
        exact .inr ⟨d, x, s, t, h.symm, rfl, hs, ht, same, point⟩

/-! ## A run over the programs -/

/-- Programs that are added were read, are declared in order, and are put into the managers of
    their schedules. -/
theorem Progress.each_addItem_eq_ok {g last : Progress} {steps : List (Except Erl.Fault Item)}
    {done : List (Name × Schedule)} (managed : Managed done g.managers)
    (h : Progress.each addItem g steps = .ok last) : ∃ xs, AllOk steps xs ∧
      g.model.declareAll (xs.map Item.declaration) = (last.model, .ok ()) ∧
      Managed (done ++ xs.filterMap Item.scheduled?) last.managers := by
  induction steps generalizing g done with
  | nil =>
    cases h
    exact ⟨[], rfl, rfl, by simpa using managed⟩
  | cons step steps ih =>
    rw [Progress.each] at h
    split at h
    · cases h
    · next next added =>
      obtain ⟨x, rfl, declared, managed⟩ := addItem_eq_ok managed added
      obtain ⟨xs, read, all, managed⟩ := ih managed h
      refine ⟨x :: xs, ?_, ?_, ?_⟩
      · rw [AllOk] at read ⊢
        rw [List.map_cons, read]
      · rw [List.map_cons, Model.declareAll, declared]
        exact all
      · rw [List.filterMap_cons]
        cases hs : x.scheduled? <;> simpa [hs] using managed

/-- Names of programs that are free and pairwise different. -/
structure Fresh (m : Model) (steps : List (Except Erl.Fault Item)) : Prop where
  free : ∀ x, .ok x ∈ steps → m.taken (.name x.program.name.key) = false
  apart : steps.Pairwise fun a b => ∀ x y, a = .ok x → b = .ok y →
    x.program.name.key ≠ y.program.name.key

/-- With one name declared the names after it are still free. -/
theorem Fresh.push {m : Model} {x : Item} {steps : List (Except Erl.Fault Item)}
    (h : Fresh m (.ok x :: steps)) : Fresh (m.push x.declaration) steps := by
  obtain ⟨first, rest⟩ := List.pairwise_cons.1 h.apart
  refine ⟨fun y hy => ?_, rest⟩
  have other : x.program.name.key ≠ y.program.name.key := first _ hy x y rfl rfl
  rw [taken_push, x.slot?_declaration, h.free y (List.mem_cons_of_mem _ hy)]
  simpa using other

/-- Programs with free names that are not added: one of them is at fault itself, or two schedules
    name one manager and two calling points. -/
theorem Progress.each_addItem_eq_error {g : Progress} {steps : List (Except Erl.Fault Item)}
    {fault : Fault} {done : List (Name × Schedule)} (managed : Managed done g.managers)
    (fresh : Fresh g.model steps) (h : Progress.each addItem g steps = .error fault) :
    (∃ f, .error f ∈ steps ∧ fault = .program f) ∨
    (∃ d, fault = .file d) ∧ ∀ schedules : List Schedule, done.map Prod.snd ⊆ schedules →
      (∀ x s, .ok x ∈ steps → x.schedule = some s → s ∈ schedules) → ¬ OnePoint schedules := by
  induction steps generalizing g done with
  | nil => cases h
  | cons step steps ih =>
    have free (x : Item) (hx : step = .ok x) : g.model.taken (.name x.program.name.key) = false :=
      fresh.free x (hx ▸ List.mem_cons_self)
    rw [Progress.each] at h
    split at h
    · next failed =>
      cases h
      rcases addItem_eq_error managed free failed with
        ⟨f, rfl, rfl⟩ | ⟨d, x, s, t, rfl, rfl, hs, ht, same, point⟩
      · exact .inl ⟨f, List.mem_cons_self, rfl⟩
      · refine .inr ⟨⟨d, rfl⟩, fun schedules before these one => point ?_⟩
        exact one s (these x s List.mem_cons_self hs) t (before ht) same
    · next next added =>
      obtain ⟨x, rfl, declared, managed⟩ := addItem_eq_ok managed added
      obtain ⟨-, -, pushed⟩ := declare_eq_ok_iff.1 declared
      rcases ih managed (pushed ▸ fresh.push) h with ⟨f, hf, rfl⟩ | ⟨isFile, clash⟩
      · exact .inl ⟨f, List.mem_cons_of_mem _ hf, rfl⟩
      · refine .inr ⟨isFile, fun schedules before these => clash schedules ?_ ?_⟩
        · -- the schedule of `x` is among those so far
          intro s hs
          rw [List.map_append, List.mem_append] at hs
          rcases hs with hs | hs
          · exact before hs
          · obtain ⟨e, he, rfl⟩ := List.mem_map.1 hs
            obtain ⟨t, ht, rfl⟩ := Option.map_eq_some_iff.1 (Option.mem_toList.1 he)
            exact these x t List.mem_cons_self ht
        · exact fun y s hy hs => these y s (List.mem_cons_of_mem _ hy) hs

end Project

end BuildingControl
