/-
  BuildingControl.Proofs.Project.Reordering

  Entries in another order.  Whether the check of a project file accepts it, and
  whether its model is built, does not depend on the order of the entries in any
  section (`accepts_reordered`).  What the check asks for is asked of the entries as a
  set of different names (`Sound.reordered`).  A build adds the same objects in another
  order and puts the same programs into calling managers; the managers may differ in
  spelling and in the order of their programs, which nothing later looks at
  (`Model.Alike`).
-/
import BuildingControl.Proofs.Measure.Alike
import BuildingControl.Proofs.Project.Accepted
import BuildingControl.Proofs.Project.Listing

namespace BuildingControl

open Erl Model

/-- Steps without faults are without faults in any order. -/
theorem AllOk.perm {ε α : Type} {steps more : List (Except ε α)} {xs : List α}
    (h : AllOk steps xs) (perm : steps.Perm more) : ∃ ys, AllOk more ys ∧ xs.Perm ys := by
  obtain ⟨ys, read⟩ := exists_allOk_iff.2 fun step mem => by
    have among := perm.mem_iff.2 mem
    rw [h] at among
    obtain ⟨x, -, same⟩ := List.mem_map.1 among
    exact ⟨x, same.symm⟩
  refine ⟨ys, read, ?_⟩
  rw [h, read] at perm
  have results := perm.filterMap Except.toOption
  simp only [List.filterMap_map] at results
  have own (zs : List α) : zs.filterMap (Except.toOption ∘ Except.ok (ε := ε)) = zs :=
    List.filterMap_some
  rwa [own, own] at results

/-- Requests take no slot. -/
theorem Model.Declaration.kind_of_slot? (d : Declaration) {s : Slot} (h : d.slot? = some s) :
    d.kind ≠ .request := by
  intro request
  cases d <;> cases request
  cases h

namespace Project

/-- Two projects with the same entries in each section, in any order; measures, which are applied in
    order, and all else are the same. -/
structure Reordered (p q : Project) : Prop where
  version : p.version = q.version
  name : p.name = q.name
  reporting : p.reporting = q.reporting
  sensors : p.sensors.Perm q.sensors
  actuators : p.actuators.Perm q.actuators
  globals : p.globals.Perm q.globals
  trends : p.trends.Perm q.trends
  internals : p.internals.Perm q.internals
  outputs : p.outputs.Perm q.outputs
  tables : p.tables.Perm q.tables
  programs : p.programs.Perm q.programs
  measures : p.measures = q.measures

namespace Reordered

variable {p q : Project} (h : p.Reordered q)

include h

theorem symm : q.Reordered p where
  version := h.version.symm
  name := h.name.symm
  reporting := h.reporting.symm
  sensors := h.sensors.symm
  actuators := h.actuators.symm
  globals := h.globals.symm
  trends := h.trends.symm
  internals := h.internals.symm
  outputs := h.outputs.symm
  tables := h.tables.symm
  programs := h.programs.symm
  measures := h.measures.symm

/-! ## The same names and steps -/

theorem bindings : p.bindings.Perm q.bindings :=
  ((h.sensors.map _).append ((h.actuators.map _).append (h.globals.map _))).append
    ((h.trends.map _).append ((h.internals.map _).append
      ((h.tables.map _).append (h.programs.map _))))

theorem schedules : p.schedules.Perm q.schedules :=
  (h.tables.filterMap _).append (h.programs.filterMap _)

theorem items : p.items.Perm q.items :=
  (h.tables.map _).append (h.programs.map _)

theorem variableSteps : p.variableSteps.Perm q.variableSteps :=
  ((h.sensors.map _).append ((h.actuators.map _).append (h.globals.map _))).append
    ((h.trends.map _).append (h.internals.map _))

/-! ## The check -/

theorem sound (sound : p.Sound) : q.Sound where
  words b hb := sound.words b (h.bindings.mem_iff.2 hb)
  apart := (h.bindings.map _).nodup_iff.1 sound.apart
  sensors s hs := sound.sensors s (h.sensors.mem_iff.2 hs)
  actuators a ha := sound.actuators a (h.actuators.mem_iff.2 ha)
  internals v hv := sound.internals v (h.internals.mem_iff.2 hv)
  trends t ht := (sound.trends t (h.trends.mem_iff.2 ht)).mono (h.bindings.map _).subset
  tables t ht := sound.tables t (h.tables.mem_iff.2 ht)
  schedules s hs := sound.schedules s (h.schedules.mem_iff.2 hs)
  programs q hq := sound.programs q (h.programs.mem_iff.2 hq)
  runs q hq s hs := (h.bindings.map _).subset (sound.runs q (h.programs.mem_iff.2 hq) s hs)
  outputs o ho := sound.outputs o (h.outputs.mem_iff.2 ho)
  reported := (h.outputs.map _).nodup_iff.1 sound.reported

theorem check (checked : p.check = .ok ()) : q.check = .ok () := by
  obtain ⟨version, sound⟩ := check_eq_ok_iff.1 checked
  rw [h.version] at version
  exact check_eq_ok_iff.2 ⟨version, h.sound sound⟩

theorem onePoint (one : OnePoint p.schedules) : OnePoint q.schedules := by
  intro s hs t ht
  exact one s (h.schedules.mem_iff.2 hs) t (h.schedules.mem_iff.2 ht)

theorem clash (clash : Clash q.schedules) : Clash p.schedules := by
  obtain ⟨s, hs, t, ht, both⟩ := clash
  exact ⟨s, h.schedules.mem_iff.2 hs, t, h.schedules.mem_iff.2 ht, both⟩

end Reordered

/-! ## The build -/

/-- The programs and managers of a sound project come in when its programs can be read, no manager
    runs at two points, and no two are one to the model. -/
theorem Sound.exists_managed {p : Project} (sound : p.Sound) {xs : List Item}
    (read : AllOk p.items xs) (one : OnePoint p.schedules) (clear : ¬ Clash p.schedules) :
    ∃ ds declared g managed, p.declaredModel = .ok declared ∧
      Progress.each Progress.addItem ⟨declared, []⟩ p.items = .ok g ∧
      g.model.declareAll (g.managers.map .manager) = (managed, .ok ()) ∧
      p.bare.Assembled ds xs g.managers [] managed := by
  obtain ⟨ds, entries, into⟩ := sound.exists_variables
  have declared := declaredModel_of_allOk entries
  rw [sound.declareAll_variables into] at declared
  cases run : Progress.each Progress.addItem
      ⟨ds.foldl push (Model.empty.withReporting p.reporting), []⟩ p.items with
  | error fault =>
    rcases sound.each_items_eq_error into run with ⟨f, failed, -⟩ | ⟨-, apart⟩
    · rw [read] at failed
      obtain ⟨x, -, same⟩ := List.mem_map.1 failed
      cases same
    · exact absurd one apart
  | ok g =>
    obtain ⟨ys, again, managed, all, names⟩ := sound.each_items_eq_ok into run
    obtain rfl := read.unique again
    have schedules := sound.schedules_of_items again
    have silent : List.Forall₂ OutputEntry.Into p.bare.outputs [] := .nil
    obtain ⟨m, managers⟩ :=
      (sound.bare.declareAll_managers managed schedules silent names).2 clear
    rw [List.append_nil] at managers
    refine ⟨ds, _, g, m, declared, run, managers, entries, into, again, managed, rfl, ?_⟩
    have both := declareAll_append (Model.empty.withReporting p.reporting)
      (ds ++ xs.map Item.declaration) (g.managers.map .manager)
    rw [all] at both
    rw [List.append_nil]
    exact eq_ok_of_model? (both.trans (congrArg Attempt.model? managers))

/-- Building goes on from the managed programs to measures, reported variables and the check. -/
theorem build_of_managed {p : Project} (checked : p.check = .ok ()) {declared managed measured m : Model}
    {g : Progress} {os : List Declaration} (entered : p.declaredModel = .ok declared)
    (run : Progress.each Progress.addItem ⟨declared, []⟩ p.items = .ok g)
    (managers : g.model.declareAll (g.managers.map .manager) = (managed, .ok ()))
    (applied : applyMeasures managed p.measures = .ok measured)
    (outputs : AllOk (p.outputs.map OutputEntry.declaration) os)
    (reported : measured.declareAll os = (m, .ok ())) (inOrder : m.check = .ok ()) :
    p.build = .ok m := by
  rw [each_items] at run
  obtain ⟨g', tables, programs⟩ := bind_eq_ok_iff.1 run
  simp only [build, bind_eq_ok_iff, mapError_eq_ok_iff]
  refine ⟨(), checked, declared, entered, g', tables, g, programs, managed, ?_, measured, applied,
    m, ?_, (), inOrder, rfl⟩
  · rw [managers]
    rfl
  · rw [declareEntries_of_allOk outputs, reported]
    rfl

theorem checked_of_build {p : Project} {m : Model} (h : p.build = .ok m) :
    p.check = .ok () ∧ m.check = .ok () := by
  simp only [build, bind_eq_ok_iff, mapError_eq_ok_iff] at h
  obtain ⟨_, checked, _, -, _, -, _, -, _, -, _, -, last, -, _, inOrder, h⟩ := h
  cases h
  exact ⟨checked, inOrder⟩

namespace Managed

variable {done : List (Name × Schedule)} {cs : List CallingManager} (h : Managed done cs)

include h

/-- What the managers run is what is scheduled. -/
theorem exists_program_iff (k : Name) :
    (∃ c ∈ cs, k ∈ c.programs) ↔ ∃ s, (k, s) ∈ done := by
  constructor
  · rintro ⟨c, hc, hk⟩
    obtain ⟨s, hs, -⟩ := (h.programs c hc k).1 hk
    exact ⟨s, hs⟩
  · rintro ⟨s, hs⟩
    obtain ⟨c, hc, joins⟩ := h.found (k, s) hs
    exact ⟨c, hc, (h.programs c hc k).2 ⟨s, hs, joins⟩⟩

/-- The names of the managers are those of the schedules, as a model tells them apart. -/
theorem exists_name_iff (key : String) :
    (∃ c ∈ cs, Text.upper c.name = key) ↔ ∃ e ∈ done, Text.upper e.2.managerName = key := by
  constructor
  · rintro ⟨c, hc, rfl⟩
    obtain ⟨e, he, name, -⟩ := h.named c hc
    exact ⟨e, he, congrArg Text.upper name⟩
  · rintro ⟨e, he, rfl⟩
    obtain ⟨c, hc, joins⟩ := h.found e he
    exact ⟨c, hc, (Text.upper_eq_of_asciiUpper joins.name).symm⟩

end Managed

namespace Assembled

variable {p q : Project} {ds es : List Declaration} {xs ys : List Item}
  {cs bs : List CallingManager} {m n : Model}

/-- The slots of a model are those of its variables and programs, and the names of its managers. -/
theorem taken_iff (a : p.Assembled ds xs cs [] m) (s : Slot) : m.taken s = true ↔
    (∃ d, (d ∈ ds ∨ d ∈ xs.map Item.declaration) ∧ d.slot? = some s) ∨
      ∃ e ∈ xs.filterMap Item.scheduled?, .manager (Text.upper e.2.managerName) = s := by
  have managers : (∃ c ∈ cs, Slot.manager (Text.upper c.name) = s) ↔
      ∃ e ∈ xs.filterMap Item.scheduled?, .manager (Text.upper e.2.managerName) = s := by
    cases s with
    | manager key =>
      simp only [Slot.manager.injEq]
      exact a.managed.exists_name_iff key
    | name key => simp
    | output key => simp
  rw [a.coherent.taken, ← managers]
  constructor
  · rintro ⟨d, hd, slot⟩
    rcases (a.mem_declarations (d.kind_of_slot? slot)).1 hd with own | own | own
    · exact .inl ⟨d, own, slot⟩
    · obtain ⟨c, hc, rfl⟩ := List.mem_map.1 own
      exact .inr ⟨c, hc, Option.some.inj slot⟩
    · cases own
  · rintro (⟨d, own, slot⟩ | ⟨c, hc, rfl⟩)
    · exact ⟨d, (a.mem_declarations (d.kind_of_slot? slot)).2 (.inl own), slot⟩
    · have own : Declaration.manager c ∈ cs.map .manager := List.mem_map_of_mem hc
      have manager : (Declaration.manager c).kind ≠ .request := nofun
      exact ⟨.manager c, (a.mem_declarations manager).2 (.inr (.inl own)), rfl⟩

/-- No two managers are one to the model. -/
theorem nodup_managers (a : p.Assembled ds xs cs [] m) :
    (cs.map fun c => Text.upper c.name).Nodup := by
  have keys := a.coherent.nodup_keys .managers
  rwa [Model.keys, a.managers_eq] at keys

/-- The same variables and programs, in any order, lead to models that differ in order only. -/
theorem alike (a : p.Assembled ds xs cs [] m) (b : q.Assembled es ys bs [] n)
    (entries : ds.Perm es) (items : xs.Perm ys) : Model.Alike m n where
  objects d manager request := by
    have other (ms : List CallingManager) : d ∉ ms.map Declaration.manager := by
      intro mem
      obtain ⟨c, -, rfl⟩ := List.mem_map.1 mem
      exact manager rfl
    rw [a.mem_declarations request, b.mem_declarations request, entries.mem_iff,
      (items.map _).mem_iff]
    simp only [other, false_or, List.not_mem_nil]
  runs k := by
    rw [a.managers_eq, b.managers_eq, a.managed.exists_program_iff, b.managed.exists_program_iff]
    simp only [(items.filterMap Item.scheduled?).mem_iff]
  taken s := by
    rw [Bool.eq_iff_iff, a.taken_iff, b.taken_iff]
    simp only [entries.mem_iff, (items.map _).mem_iff, (items.filterMap Item.scheduled?).mem_iff]

end Assembled

/-- Measures that can be applied to a model can be applied to one that differs in order only. -/
theorem exists_applyMeasures {m n measured : Model} (alike : Model.Alike m n)
    {measures : List Measure} (applied : applyMeasures m measures = .ok measured) :
    ∃ after, applyMeasures n measures = .ok after ∧ Model.Alike measured after := by
  unfold applyMeasures at applied ⊢
  split at applied
  · next none =>
    cases applied
    exact ⟨n, if_pos none, alike⟩
  · next some =>
    obtain ⟨next, batch⟩ := Measure.model?_eq_ok_iff.1 applied
    obtain ⟨after, other, same⟩ := alike.applyBatch batch
    rw [if_neg some, other]
    exact ⟨after, rfl, same⟩

/-- A project that can be built can be built in another order. -/
theorem Reordered.build {p q : Project} (h : p.Reordered q) {m : Model} (built : p.build = .ok m) :
    ∃ n, q.build = .ok n := by
  obtain ⟨checked, inOrder⟩ := checked_of_build built
  obtain ⟨ds, xs, cs, managed, measured, os, sound, a, -, applied, outputs, reported⟩ :=
    exists_assembled built
  -- the programs of `q` are read as those of `p` are, and no manager gets in the way
  obtain ⟨ys, read, items⟩ := a.programs.perm h.items
  have one := a.managed.onePoint
  have clear := a.managed.nodup_iff_not_clash.1 a.nodup_managers
  rw [sound.schedules_of_items a.programs] at one clear
  obtain ⟨es, declared, g, n, entered, run, managers, b⟩ :=
    (h.sound sound).exists_managed read (h.onePoint one) fun clash => clear (h.clash clash)
  have entries : ds.Perm es := by
    obtain ⟨fs, made, perm⟩ := a.entries.perm h.variableSteps
    rwa [made.unique b.entries] at perm
  obtain ⟨after, batch, alike⟩ := exists_applyMeasures (a.alike b entries items) applied
  rw [h.measures] at batch
  obtain ⟨os', steps, order⟩ := outputs.perm (h.outputs.map _)
  obtain ⟨last, complete, same⟩ := alike.declareAll order reported
  have left : Coherent m := coherent_of_build built
  have right : Coherent last := by
    have coherent := (coherent_applyMeasures b.coherent batch).declareAll os'
    rwa [complete] at coherent
  exact ⟨last, build_of_managed (h.check checked) entered run managers batch steps complete
    ((same.check_iff left right).1 inOrder)⟩

/-! ## Main result -/

/-- The check of a project file accepts it exactly when it accepts the same entries in another order,
    and its model is built exactly when that of the other order is. -/
theorem accepts_reordered {p q : Project} (h : p.Reordered q) :
    (p.check = .ok () ↔ q.check = .ok ()) ∧
      ((∃ m, p.build = .ok m) ↔ ∃ n, q.build = .ok n) := by
  refine ⟨⟨h.check, h.symm.check⟩, ?_, ?_⟩
  · rintro ⟨m, built⟩
    exact h.build built
  · rintro ⟨n, built⟩
    exact h.symm.build built

/-- Programs over one global variable. -/
def overVent (programs : List ProgramEntry) : Project where
  version := 1
  name := "vent"
  reporting := .silent
  sensors := []
  actuators := []
  globals := ["vent"]
  trends := []
  internals := []
  outputs := []
  tables := []
  programs := programs
  measures := []

def openVent : ProgramEntry :=
  ⟨"Open", false, [.set "vent" "1"], some ⟨.beginNewEnvironment, some "Night"⟩⟩

def closeVent : ProgramEntry :=
  ⟨"Close", false, [.set "vent" "0"], some ⟨.beginNewEnvironment, some "NIGHT"⟩⟩

/-- Both orders are built, though the one calling manager has a name of its own in each. -/
theorem accepts_vent : (overVent [openVent, closeVent]).Reordered (overVent [closeVent, openVent]) ∧
    ∃ m n, (overVent [openVent, closeVent]).build = .ok m ∧
      (overVent [closeVent, openVent]).build = .ok n ∧
      m.managers.map CallingManager.name = ["Night"] ∧
      n.managers.map CallingManager.name = ["NIGHT"] := by
  have reordered : (overVent [openVent, closeVent]).Reordered (overVent [closeVent, openVent]) :=
    ⟨rfl, rfl, rfl, .refl _, .refl _, .refl _, .refl _, .refl _, .refl _, .refl _,
      .swap _ _ _, rfl⟩
  have first : ((overVent [openVent, closeVent]).build.toOption.any fun m =>
      m.managers.map CallingManager.name = ["Night"]) = true := by decide +kernel
  have second : ((overVent [closeVent, openVent]).build.toOption.all fun n =>
      n.managers.map CallingManager.name = ["NIGHT"]) = true := by decide +kernel
  obtain ⟨m, found, night⟩ := (Option.any_eq_true _ _).1 first
  have built := eq_ok_of_toOption found
  obtain ⟨n, other⟩ := (accepts_reordered reordered).2.1 ⟨m, built⟩
  rw [other] at second
  exact ⟨reordered, m, n, built, other, of_decide_eq_true night, of_decide_eq_true second⟩

end Project

end BuildingControl
