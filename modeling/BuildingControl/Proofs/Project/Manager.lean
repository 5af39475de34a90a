/-
  BuildingControl.Proofs.Project.Manager

  Where the scheduled programs of a project are in its finished model.  The managers
  of the project come first and are the groups of its schedules; behind them come
  those of its measures, which run programs of the measures alone, as the measures
  share no name with the project (`managers_of_build`).
-/
import BuildingControl.Proofs.Measure.Batch
import BuildingControl.Proofs.Measure.Check
import BuildingControl.Proofs.Project.Build
import BuildingControl.Proofs.Project.Grouping

namespace BuildingControl

open Erl Model

/-! ## Managers that come later -/

namespace Model

/-- Objects of other kinds leave a list as it is. -/
theorem objects_of_declareAll {m n : Model} {ds : List Declaration} {k : ObjectKind}
    (hk : k ≠ .request) (other : ∀ d ∈ ds, d.kind ≠ k) (h : m.declareAll ds = (n, .ok ())) :
    n.objects k = m.objects k := by
  obtain ⟨-, -, -, rfl⟩ := declareAll_eq_ok_iff.1 h
  have none : ds.filter (fun d => d.kind = k) = [] :=
    List.filter_eq_nil_iff.2 fun d hd => by simpa using other d hd
  rw [foldl_push_objects m ds hk, none, List.append_nil]

/-- Other objects leave the managers as they are. -/
theorem managers_of_declareAll {m n : Model} {ds : List Declaration}
    (other : ∀ d ∈ ds, d.kind ≠ .manager) (h : m.declareAll ds = (n, .ok ())) :
    n.managers = m.managers :=
  List.map_injective_iff.2 (fun _ _ => Declaration.manager.inj)
    (objects_of_declareAll (k := .manager) nofun other h)

theorem managers_foldl_join (m : Model) (os : List Model) :
    (os.foldl join m).managers = m.managers ++ os.flatMap managers := by
  induction os generalizing m with
  | nil => simp
  | cons o os ih =>
    rw [List.foldl_cons, ih, List.flatMap_cons, ← List.append_assoc]
    rfl

end Model

namespace Measure

theorem Built.exists_build {a next : Numbering} {measures : List Measure} {os : List Model}
    (h : Built a measures os next) : ∀ o ∈ os, ∃ x a b, Measure.build x a = .ok (o, b) := by
  induction h with
  | nil => exact nofun
  | cons first _ ih => exact List.forall_mem_cons.2 ⟨⟨_, _, _, first⟩, ih⟩

/-- The managers of a measure run programs of the measure. -/
theorem taken_of_manager {x : Measure} {a b : Numbering} {o : Model}
    (h : x.build a = .ok (o, b)) {c : CallingManager} (hc : c ∈ o.managers) {n : Name}
    (hn : n ∈ c.programs) : o.taken (.name n.key) = true :=
  Option.isSome_of_eq_some ((closed_of_run (build_eq_ok_iff.1 h).1).managers c hc n hn)

end Measure

namespace Project

/-- Measures that are applied bring objects of their own, which share no slot with the model. -/
theorem exists_of_applyMeasures {m measured : Model} {measures : List Measure}
    (h : applyMeasures m measures = .ok measured) : ∃ os : List Model,
      (∀ o ∈ os, Apart m o ∧ ∃ x a b, Measure.build x a = .ok (o, b)) ∧
      os.foldl join m = measured := by
  unfold applyMeasures at h
  split at h
  · cases h
    exact ⟨[], nofun, rfl⟩
  · obtain ⟨next, applied⟩ := Measure.model?_eq_ok_iff.1 h
    rw [Measure.applyBatch_eq_ok_iff, Measure.applyEach_eq_ok_iff] at applied
    obtain ⟨os, built, aparts, -, joined⟩ := applied
    exact ⟨os, fun o ho => ⟨aparts o ho, built.exists_build o ho⟩, joined⟩

/-! ## The steps of a build -/

/-- A project without its measures and its reported variables, which come in last. -/
def bare (p : Project) : Project := { p with outputs := [], measures := [] }

theorem Sound.bare {p : Project} (h : p.Sound) : p.bare.Sound where
  words := h.words
  apart := h.apart
  sensors := h.sensors
  actuators := h.actuators
  internals := h.internals
  trends := h.trends
  tables := h.tables
  schedules := h.schedules
  programs := h.programs
  runs := h.runs
  outputs := nofun
  reported := List.nodup_nil

/-- The parts of a model that is built: what the project declares, the managers of its programs,
    its measures and its reported variables. -/
theorem exists_assembled {p : Project} {m : Model} (h : p.build = .ok m) :
    ∃ ds xs cs managed measured os, p.Sound ∧ p.bare.Assembled ds xs cs [] managed ∧
      cs = (grouped (xs.filterMap Item.scheduled?)).map managerOf ∧
      applyMeasures managed p.measures = .ok measured ∧
      AllOk (p.outputs.map OutputEntry.declaration) os ∧
      measured.declareAll os = (m, .ok ()) := by
  simp only [build, bind_eq_ok_iff, mapError_eq_ok_iff] at h
  obtain ⟨_, checked, declared, entered, g, tables, last, programs, managed, managers, measured,
    applied, reported, outputs, _, -, h⟩ := h
  cases h
  have sound := sound_of_check checked
  obtain ⟨ds, entries, into⟩ := sound.exists_variables
  obtain ⟨os, outputSteps, -⟩ := sound.exists_outputs
  rw [declaredModel_of_allOk entries] at entered
  rw [declareEntries_of_allOk outputSteps] at outputs
  have run : Progress.each Progress.addItem ⟨declared, []⟩ p.items = .ok last := by
    rw [each_items, tables]
    exact programs
  obtain ⟨xs, read, items, managedBy⟩ := Progress.each_addItem_eq_ok .nil run
  rw [List.nil_append] at managedBy
  have none : (⟨declared, []⟩ : Progress).managers = (grouped []).map managerOf := rfl
  have groups := managers_of_each none read run
  have all : ((Model.empty.withReporting p.reporting).declareAll
      (ds ++ xs.map Item.declaration ++ (last.managers.map .manager ++ []))).model? =
        .ok managed := by
    rw [List.append_nil, declareAll_append, declareAll_append, entered]
    show ((declared.declareAll _).model? >>= _) = _
    rw [items]
    exact managers
  exact ⟨ds, xs, last.managers, managed, measured, os, sound,
    ⟨entries, into, read, managedBy, rfl, eq_ok_of_model? all⟩, groups, applied, outputSteps,
    eq_ok_of_model? outputs⟩

/-! ## Names of programs -/

/-- Tables and programs have names of their own. -/
theorem Sound.nodup_parts {p : Project} (h : p.Sound) :
    (p.parts.map fun part => Text.asciiUpper part.binding.name).Nodup := by
  have apart := h.apart
  rw [bindings_eq, programBindings_eq, List.map_append, List.nodup_append, List.map_map] at apart
  exact apart.2.1

/-- Subroutines have no schedule. -/
theorem Sound.schedule_of_subroutine {p : Project} (h : p.Sound) {part : Part}
    (mem : part ∈ p.parts) (subroutine : part.binding.cls = .subroutine) :
    part.schedule = none := by
  rcases List.mem_append.1 mem with mem | mem
  · obtain ⟨t, -, rfl⟩ := List.mem_map.1 mem
    cases subroutine
  · obtain ⟨q, hq, rfl⟩ := List.mem_map.1 mem
    refine h.programs q hq ?_
    by_contra other
    have program : q.cls = .program := if_neg other
    rw [show q.part.binding.cls = q.cls from rfl, program] at subroutine
    cases subroutine

/-- The schedule of a program is that of the only part with its name. -/
theorem Sound.schedule_of_mem_scheduled {p : Project} (h : p.Sound) {e : String × Schedule}
    (he : e ∈ p.scheduled) {part : Part} (mem : part ∈ p.parts)
    (same : Text.sameLetters e.1 part.binding.name = true) : part.schedule = some e.2 := by
  obtain ⟨other, hother, scheduled⟩ := List.mem_filterMap.1 he
  obtain ⟨s, hs, rfl⟩ := Option.map_eq_some_iff.1 scheduled
  have one : other = part :=
    List.inj_on_of_nodup_map h.nodup_parts hother mem (Text.sameLetters_iff.1 same)
  rw [← one, hs]

theorem Sound.nodup_scheduled {p : Project} (h : p.Sound) :
    (p.scheduled.map fun e => Text.asciiUpper e.1).Nodup := by
  have apart := List.pairwise_map.1 h.nodup_parts
  rw [List.Nodup, List.pairwise_map, scheduled, List.pairwise_filterMap]
  refine apart.imp fun ne e he f hf => ?_
  obtain ⟨_, -, rfl⟩ := Option.map_eq_some_iff.1 he
  obtain ⟨_, -, rfl⟩ := Option.map_eq_some_iff.1 hf
  exact ne

/-! ## Main result -/

/-- A calling manager in writing: its name, its calling point, and the programs it runs. -/
def managerText (c : CallingManager) : String × CallingPoint × List String :=
  (c.name, c.callingPoint, c.programs.map Name.text)

/-- The calling manager of a group in writing. -/
def groupText (g : Schedule × List String) : String × CallingPoint × List String :=
  (g.1.managerName, g.1.callingPoint, g.2)

/-- How often managers run the program of this name, in any spelling. -/
def timesRun (cs : List CallingManager) (name : String) : Nat :=
  (cs.flatMap CallingManager.programs).countP fun n => Text.sameLetters n.text name

theorem timesRun_append (cs ds : List CallingManager) (name : String) :
    timesRun (cs ++ ds) name = timesRun cs name + timesRun ds name := by
  rw [timesRun, List.flatMap_append, List.countP_append, timesRun, timesRun]

theorem timesRun_eq_count (cs : List CallingManager) (name : String) : timesRun cs name =
    ((cs.flatMap CallingManager.programs).map Name.key).count (Text.asciiUpper name) := by
  rw [timesRun, List.count, List.countP_map]
  rfl

section Own

variable {p : Project} (sound : p.Sound) {xs : List Item} (read : AllOk p.items xs)

include sound read

/-- The managers of a project are the groups of its schedules. -/
theorem text_own : ((grouped (xs.filterMap Item.scheduled?)).map managerOf).map managerText =
    (grouped p.scheduled).map groupText := by
  rw [← sound.scheduled_eq read, grouped_map, List.map_map, List.map_map]
  rfl

/-- They run every scheduled program once, and nothing else. -/
theorem timesRun_own (name : String) :
    timesRun ((grouped (xs.filterMap Item.scheduled?)).map managerOf) name =
      (p.scheduled.map fun e => Text.asciiUpper e.1).count (Text.asciiUpper name) := by
  have names : ((grouped (xs.filterMap Item.scheduled?)).map managerOf).flatMap
      CallingManager.programs = (grouped (xs.filterMap Item.scheduled?)).flatMap Prod.snd :=
    List.flatMap_map _ _ _
  have keys := (grouped_perm (xs.filterMap Item.scheduled?)).map Name.key
  rw [timesRun_eq_count, names, keys.count_eq, ← sound.scheduled_eq read, List.map_map,
    List.map_map]
  rfl

/-- A scheduled program is run where its schedule says. -/
theorem exists_own (one : OnePoint p.schedules) {e : String × Schedule} (he : e ∈ p.scheduled) :
    ∃ c ∈ (grouped (xs.filterMap Item.scheduled?)).map managerOf,
      e.1 ∈ c.programs.map Name.text ∧ c.callingPoint = e.2.callingPoint ∧
        Text.sameLetters c.name e.2.managerName = true := by
  rw [← sound.scheduled_eq read] at he
  rw [← sound.schedules_of_items read] at one
  obtain ⟨⟨n, s⟩, hn, rfl⟩ := List.mem_map.1 he
  obtain ⟨g, hg, mem, key, first⟩ := exists_group hn
  have same : Text.sameLetters (managerOf g).name s.managerName = true :=
    Text.sameLetters_iff.2 key.symm
  exact ⟨managerOf g, List.mem_map_of_mem hg, List.mem_map_of_mem mem,
    one _ first s (List.mem_map_of_mem hn) same, same⟩

end Own

/-- Measures run none of the programs of a project that shares no name with them. -/
theorem timesRun_measures {p : Project} (sound : p.Sound) {ds outs : List Declaration}
    {xs : List Item} {cs : List CallingManager} {managed : Model}
    (a : p.Assembled ds xs cs outs managed) {os : List Model}
    (measures : ∀ o ∈ os, Apart managed o ∧ ∃ x a b, Measure.build x a = .ok (o, b))
    {part : Part} (mem : part ∈ p.parts) :
    timesRun (os.flatMap managers) part.binding.name = 0 := by
  have bound : part.binding ∈ p.bindings := by
    rw [bindings_eq, programBindings_eq]
    exact List.mem_append_right _ (List.mem_map_of_mem mem)
  have declared := a.lookup?_eq sound (List.mem_map_of_mem (f := Binding.entry) bound)
  have taken : managed.taken (.name (Text.asciiUpper part.binding.name)) = true :=
    Option.isSome_of_eq_some declared
  -- a measure that ran the program would have it among its own, where the project has one
  refine List.countP_eq_zero.2 fun n hn same => ?_
  obtain ⟨c, hc, hn⟩ := List.mem_flatMap.1 hn
  obtain ⟨o, ho, hc⟩ := List.mem_flatMap.1 hc
  obtain ⟨apart, x, start, next, built⟩ := measures o ho
  have free := apart _ (Measure.taken_of_manager built hc hn)
  rw [Name.key, Text.sameLetters_iff.1 same, taken] at free
  cases free

/-- In the model of a project every table and program with a schedule is run once, by a calling
    manager at the point of the schedule whose name is that of the schedule's manager up to the case
    of letters; subroutines and programs without a schedule are run by none.  The managers of the
    project come first, in the order in which the schedules mention them, tables before programs,
    and each runs its programs in that order; those of the measures behind them run no program of
    the project.  A project that names one manager and two calling points is never built. -/
theorem managers_of_build (p : Project) :
    (∀ m, p.build = .ok m → ∃ own others, m.managers = own ++ others ∧
      own.map managerText = (grouped p.scheduled).map groupText ∧
      (∀ part ∈ p.parts, ∀ s, part.schedule = some s →
        timesRun m.managers part.binding.name = 1 ∧
        ∃ c ∈ own, part.binding.name ∈ c.programs.map Name.text ∧
          c.callingPoint = s.callingPoint ∧ Text.sameLetters c.name s.managerName = true) ∧
      (∀ part ∈ p.parts, part.schedule = none ∨ part.binding.cls = .subroutine →
        timesRun m.managers part.binding.name = 0) ∧
      ∀ part ∈ p.parts, timesRun others part.binding.name = 0) ∧
    (¬ OnePoint p.schedules → ∀ m, p.build ≠ .ok m) := by
  have onePoint {m : Model} (h : p.build = .ok m) : OnePoint p.schedules := by
    obtain ⟨ds, xs, cs, managed, measured, os, sound, a, -⟩ := exists_assembled h
    have one := a.managed.onePoint
    rwa [sound.schedules_of_items a.programs] at one
  refine ⟨fun m built => ?_, fun apart m built => apart (onePoint built)⟩
  obtain ⟨ds, xs, cs, managed, measured, os, sound, a, groups, applied, outputs, reported⟩ :=
    exists_assembled built
  obtain ⟨models, measures, rfl⟩ := exists_of_applyMeasures applied
  have managers : m.managers = cs ++ models.flatMap managers := by
    have other : ∀ d ∈ os, d.kind ≠ .manager := by
      intro d hd
      have made : .ok d ∈ p.outputs.map OutputEntry.declaration := by
        rw [outputs]
        exact List.mem_map_of_mem hd
      obtain ⟨o, -, made⟩ := List.mem_map.1 made
      obtain ⟨n, -, made⟩ := bind_eq_ok_iff.1 made
      cases made
      exact nofun
    rw [managers_of_declareAll other reported, managers_foldl_join, a.managers_eq]
  have none {part : Part} (mem : part ∈ p.parts) :
      timesRun (models.flatMap Model.managers) part.binding.name = 0 :=
    timesRun_measures sound.bare a measures mem
  -- so how often a program is run is how often it is scheduled
  have times {part : Part} (mem : part ∈ p.parts) : timesRun m.managers part.binding.name =
      (p.scheduled.map fun e => Text.asciiUpper e.1).count (Text.asciiUpper part.binding.name) := by
    rw [managers, timesRun_append, none mem, groups, timesRun_own sound a.programs, Nat.add_zero]
  refine ⟨cs, models.flatMap Model.managers, managers, ?_, fun part mem s hs => ?_,
    fun part mem unscheduled => ?_, fun part mem => none mem⟩
  · rw [groups, text_own sound a.programs]
  · have scheduled : (part.binding.name, s) ∈ p.scheduled :=
      List.mem_filterMap.2 ⟨part, mem, by rw [Part.scheduled?, hs]; rfl⟩
    refine ⟨?_, ?_⟩
    · rw [times mem]
      refine List.count_eq_one_of_mem sound.nodup_scheduled ?_
      exact List.mem_map.2 ⟨_, scheduled, rfl⟩
    · rw [groups]
      exact exists_own sound a.programs (onePoint built) scheduled
  · rw [times mem]
    refine List.count_eq_zero.2 fun there => ?_
    obtain ⟨e, he, same⟩ := List.mem_map.1 there
    have schedule := sound.schedule_of_mem_scheduled he mem (Text.sameLetters_iff.2 same)
    rcases unscheduled with without | subroutine
    · rw [without] at schedule
      cases schedule
    · rw [sound.schedule_of_subroutine mem subroutine] at schedule
      cases schedule

/-- A table and two programs in one manager, spelled in three ways, a program in the usual manager
    of its calling point, a subroutine, a program without a schedule, and a measure. -/
def daily : Project where
  version := 1
  name := "daily"
  reporting := .silent
  sensors := []
  actuators := []
  globals := ["G"]
  trends := []
  internals := []
  outputs := []
  tables := [⟨"T", "G", .lt, [⟨1.0, "G", "1"⟩], ⟨"G", "0"⟩,
    some ⟨.endOfZoneSizing, some "Day"⟩⟩]
  programs :=
    [⟨"A", false, [.leave], some ⟨.beginNewEnvironment, none⟩⟩,
     ⟨"B", false, [.run "Q"], some ⟨.endOfZoneSizing, some "day"⟩⟩,
     ⟨"Q", true, [.leave], none⟩,
     ⟨"D", false, [.leave], none⟩,
     ⟨"C", false, [.leave], some ⟨.endOfZoneSizing, some "DAY"⟩⟩]
  measures := [.comfortHalt { Measure.Comfort.default with zones := ["Z"] }]

/-- The same with one more program for the manager, at another calling point. -/
def crossed : Project where
  __ := daily
  programs := daily.programs ++
    [⟨"E", false, [.leave], some ⟨.beginNewEnvironment, some "dAY"⟩⟩]

theorem managers_of_build_daily :
    (∃ m, daily.build = .ok m ∧ ∃ own others, m.managers = own ++ others ∧
      own.map managerText = [("Day", .endOfZoneSizing, ["T", "B", "C"]),
        ("BeginNewEnvironment Programs", .beginNewEnvironment, ["A"])]) ∧
    ∀ m, crossed.build ≠ .ok m := by
  have builds : daily.build.isOk = true := by decide +kernel
  obtain ⟨m, built⟩ := exists_of_isOk builds
  obtain ⟨own, others, parts, text, -⟩ := (managers_of_build daily).1 m built
  have apart : ¬ OnePoint crossed.schedules := by
    intro one
    have day : ⟨.endOfZoneSizing, some "Day"⟩ ∈ crossed.schedules := .head _
    have other : ⟨.beginNewEnvironment, some "dAY"⟩ ∈ crossed.schedules :=
      .tail _ (.tail _ (.tail _ (.tail _ (.head _))))
    cases one _ day _ other (by decide)
  exact ⟨⟨m, built, own, others, parts, text.trans (by decide +kernel)⟩,
    (managers_of_build crossed).2 apart⟩

end Project

end BuildingControl
