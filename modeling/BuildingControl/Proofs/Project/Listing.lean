/-
  BuildingControl.Proofs.Project.Listing

  The listing of a project's programs against its model (`listing_of_build`).  The
  listing looks for the first calling manager that runs a program of exactly its
  spelling, where the model resolves names in any spelling.  Both come to the same,
  because the managers of a model that is built, those of the measures included, run
  programs of the model under their own names, and no program twice (`RunsOwn`).
-/
import BuildingControl.Proofs.Measure.Reachable
import BuildingControl.Proofs.Measure.Schedule
import BuildingControl.Proofs.Project.Manager
import BuildingControl.Service.File
import BuildingControl.Service.Listing

namespace BuildingControl

open Erl Model

namespace Model

/-! ## What the managers of a model run -/

/-- The calling managers run programs of the model under the names that these carry, and none of
    them twice. -/
def RunsOwn (m : Model) : Prop :=
  (m.managers.flatMap CallingManager.programs).Subperm (m.programs.map Program.name)

theorem RunsOwn.join {m n : Model} (hm : m.RunsOwn) (hn : n.RunsOwn) : (m.join n).RunsOwn := by
  show ((m.managers ++ n.managers).flatMap CallingManager.programs).Subperm
    ((m.programs ++ n.programs).map Program.name)
  rw [List.flatMap_append, List.map_append]
  exact ((List.subperm_append_right _).2 hm).trans ((List.subperm_append_left _).2 hn)

theorem RunsOwn.foldl_join {m : Model} {os : List Model} (hm : m.RunsOwn)
    (each : ∀ o ∈ os, o.RunsOwn) : (os.foldl Model.join m).RunsOwn := by
  induction os generalizing m with
  | nil => exact hm
  | cons o os ih =>
    obtain ⟨first, rest⟩ := List.forall_mem_cons.1 each
    exact ih (hm.join first) rest

/-- The calling managers that run the program of this name, in any spelling. -/
def runners (m : Model) (name : String) : List CallingManager :=
  m.managers.filter fun c => c.programs.any fun n => Text.sameLetters n.text name

/-- A program goes by the name that it carries. -/
theorem any_text_iff {c : CallingManager} {q : Program} :
    (c.programs.any fun n => n.text == q.name.text) = true ↔ q.name ∈ c.programs := by
  rw [List.any_eq_true]
  constructor
  · rintro ⟨n, hn, same⟩
    rwa [← Name.eq_of_text (by simpa using same : n.text = q.name.text)]
  · intro mem
    exact ⟨q.name, mem, beq_self_eq_true _⟩

section Runners

variable {m : Model} (coherent : Coherent m) (own : m.RunsOwn)

include coherent

theorem nodup_programs : (m.programs.map fun p => p.name.key).Nodup := by
  have bodies := coherent.nodup_bodies
  rw [List.map_append] at bodies
  exact bodies.of_append_left

include own

/-- A manager that runs a program in some spelling runs it under its own. -/
theorem any_sameLetters_iff {c : CallingManager} (hc : c ∈ m.managers) {q : Program}
    (hq : q ∈ m.programs) :
    (c.programs.any fun n => Text.sameLetters n.text q.name.text) = true ↔ q.name ∈ c.programs := by
  rw [List.any_eq_true]
  constructor
  · rintro ⟨n, hn, same⟩
    have run : n ∈ m.managers.flatMap CallingManager.programs := List.mem_flatMap.2 ⟨c, hc, hn⟩
    obtain ⟨other, hother, rfl⟩ := List.mem_map.1 (own.subset run)
    have one : other = q :=
      List.inj_on_of_nodup_map (nodup_programs coherent) hother hq (Text.sameLetters_iff.1 same)
    rwa [one] at hn
  · intro mem
    exact ⟨q.name, mem, Text.sameLetters_iff.2 rfl⟩

/-- No program is run by two managers. -/
theorem length_runners_le {q : Program} (hq : q ∈ m.programs) :
    (m.runners q.name.text).length ≤ 1 := by
  have once : (m.managers.flatMap CallingManager.programs).Nodup := by
    obtain ⟨runs, perm, sub⟩ := own
    have names : (m.programs.map Program.name).Nodup :=
      List.Nodup.of_map Name.key (by rw [List.map_map]; exact nodup_programs coherent)
    exact perm.nodup_iff.1 (names.sublist sub)
  have apart : (m.runners q.name.text).Pairwise fun c d => List.Disjoint c.programs d.programs :=
    (List.nodup_flatMap.1 once).2.sublist List.filter_sublist
  have runs : ∀ c ∈ m.runners q.name.text, q.name ∈ c.programs := by
    intro c hc
    obtain ⟨there, runs⟩ := List.mem_filter.1 hc
    exact (any_sameLetters_iff coherent own there hq).1 runs
  -- two managers that run the program would share it
  match m.runners q.name.text, apart, runs with
  | [], _, _ => exact Nat.zero_le 1
  | [_], _, _ => exact Nat.le_refl 1
  | c :: d :: _, apart, runs =>
    have disjoint := (List.pairwise_cons.1 apart).1 d List.mem_cons_self
    exact (disjoint (runs c List.mem_cons_self)
      (runs d (List.mem_cons_of_mem c List.mem_cons_self))).elim

/-- The schedule of a program that is listed is that of the manager that runs it. -/
theorem scheduleOf?_eq_some_iff {q : Program} (hq : q ∈ m.programs) {name : String}
    {point : CallingPoint} : Service.scheduleOf? m q.name.text = some (name, point) ↔
      ∃ c ∈ m.runners q.name.text, c.name = name ∧ c.callingPoint = point := by
  have found : (m.managers.find? fun c => c.programs.any fun n => n.text == q.name.text) =
      (m.runners q.name.text).head? := by
    rw [runners, ← List.head?_filter]
    refine congrArg List.head? (List.filter_congr fun c hc => ?_)
    rw [Bool.eq_iff_iff, any_text_iff, any_sameLetters_iff coherent own hc hq]
  rw [Service.scheduleOf?, found]
  match m.runners q.name.text, length_runners_le coherent own hq with
  | [], _ => simp
  | [c], _ => simp
  | c :: d :: rest, two => exact absurd two (by simp)

end Runners

end Model

namespace Project

/-! ## The managers of a project -/

/-- Subroutines are never scheduled. -/
theorem unscheduled_of_subroutine {p : Project} {x : Item} (mem : .ok x ∈ p.items)
    (subroutine : x.subroutine = true) : x.schedule = none := by
  rcases List.mem_append.1 mem with mem | mem
  · obtain ⟨t, -, read⟩ := List.mem_map.1 mem
    obtain ⟨program, -, rfl⟩ := map_eq_ok_iff.1 read
    cases subroutine
  · obtain ⟨q, -, read⟩ := List.mem_map.1 mem
    obtain ⟨program, -, rfl⟩ := map_eq_ok_iff.1 read
    exact if_pos subroutine

/-- The programs among the items that a project reads, subroutines aside. -/
def programsOf (xs : List Item) : List Program :=
  (xs.filter fun x => !x.subroutine).map Item.program

/-- What is scheduled is among the programs, in order. -/
theorem scheduled_sublist {xs : List Item}
    (unscheduled : ∀ x ∈ xs, x.subroutine = true → x.schedule = none) :
    ((xs.filterMap Item.scheduled?).map Prod.fst).Sublist ((programsOf xs).map Program.name) := by
  induction xs with
  | nil => exact .slnil
  | cons x xs ih =>
    obtain ⟨first, rest⟩ := List.forall_mem_cons.1 unscheduled
    cases subroutine : x.subroutine with
    | true =>
      have none : x.scheduled? = none := by rw [Item.scheduled?, first subroutine]; rfl
      rw [List.filterMap_cons_none none, programsOf, List.filter_cons_of_neg (by simp [subroutine])]
      exact ih rest
    | false =>
      rw [programsOf, List.filter_cons_of_pos (by simp [subroutine]), List.map_cons, List.map_cons]
      cases schedule : x.schedule with
      | none =>
        have none : x.scheduled? = none := by rw [Item.scheduled?, schedule]; rfl
        rw [List.filterMap_cons_none none]
        exact (ih rest).cons _
      | some s =>
        have some : x.scheduled? = some (x.program.name, s) := by
          rw [Item.scheduled?, schedule]
          rfl
        rw [List.filterMap_cons_some some, List.map_cons]
        exact (ih rest).cons_cons _

namespace Assembled

variable {p : Project} {ds os : List Declaration} {xs : List Item} {cs : List CallingManager}
  {m : Model} (a : p.Assembled ds xs cs os m)

include a

/-- The programs of the model are those that were read, in order. -/
theorem programs_eq : m.programs = programsOf xs := by
  obtain ⟨-, -, -, pushed⟩ := declareAll_eq_ok_iff.1 a.declared
  have none (es : List Declaration) (other : ∀ d ∈ es, d.kind ≠ .program) :
      es.filter (fun d => d.kind = .program) = [] :=
    List.filter_eq_nil_iff.2 fun d hd => by simpa using other d hd
  have variables' := none ds fun d hd => (a.kind_of_mem_variables hd).1
  have outputs' := none os fun d hd => by simp [a.kind_of_mem_outputs hd]
  have managers' : (cs.map Declaration.manager).filter (fun d => d.kind = .program) = [] := by
    refine none _ fun d hd => ?_
    obtain ⟨c, -, rfl⟩ := List.mem_map.1 hd
    nofun
  have items : (xs.map Item.declaration).filter (fun d => d.kind = .program) =
      (programsOf xs).map Declaration.program := by
    rw [List.filter_map, programsOf, List.map_map]
    have programs : (fun d : Declaration => decide (d.kind = .program)) ∘ Item.declaration =
        fun x => !x.subroutine := by
      funext x
      show decide (x.declaration.kind = .program) = !x.subroutine
      unfold Item.declaration
      cases x.subroutine <;> rfl
    rw [programs]
    refine List.map_congr_left fun x hx => ?_
    have program : ¬ x.subroutine = true := by simpa using (List.mem_filter.1 hx).2
    exact if_neg program
  have objects : m.programs.map Declaration.program = (programsOf xs).map Declaration.program := by
    have all := foldl_push_objects (Model.empty.withReporting p.reporting)
      (ds ++ xs.map Item.declaration ++ (cs.map .manager ++ os)) (k := .program) nofun
    rw [pushed, List.filter_append, List.filter_append, List.filter_append, variables', items,
      managers', outputs', List.nil_append, List.append_nil, List.append_nil] at all
    exact all
  exact List.map_injective_iff.2 (fun _ _ => Declaration.program.inj) objects

theorem runsOwn (groups : cs = (grouped (xs.filterMap Item.scheduled?)).map managerOf) :
    m.RunsOwn := by
  have names : cs.flatMap CallingManager.programs =
      (grouped (xs.filterMap Item.scheduled?)).flatMap Prod.snd := by
    rw [groups]
    exact List.flatMap_map _ _ _
  rw [Model.RunsOwn, a.managers_eq, names, a.programs_eq]
  -- every scheduled program is in one group, and the scheduled ones are some of the programs
  refine ((grouped_perm _).subperm).trans (scheduled_sublist fun x hx => ?_).subperm
  refine unscheduled_of_subroutine (p := p) ?_
  rw [a.programs]
  exact List.mem_map_of_mem hx

end Assembled

/-- Every model that is built runs its own programs. -/
theorem runsOwn_of_build {p : Project} {m : Model} (h : p.build = .ok m) : m.RunsOwn := by
  obtain ⟨ds, xs, cs, managed, measured, os, -, a, groups, applied, outputs, reported⟩ :=
    exists_assembled h
  obtain ⟨models, measures, rfl⟩ := exists_of_applyMeasures applied
  have own : (models.foldl join managed).RunsOwn := by
    refine (a.runsOwn groups).foldl_join fun o ho => ?_
    obtain ⟨-, x, start, next, built⟩ := measures o ho
    rw [Model.RunsOwn, Measure.runs_of_build built]
  -- reported variables come last and leave programs and managers alone
  have kinds : ∀ d ∈ os, d.kind = .output := fun d hd => kind_of_allOk_outputs outputs hd
  have programs : m.programs = (models.foldl join managed).programs :=
    List.map_injective_iff.2 (fun _ _ => Declaration.program.inj)
      (objects_of_declareAll (k := .program) nofun (fun d hd => by simp [kinds d hd]) reported)
  have managers : m.managers = (models.foldl join managed).managers :=
    managers_of_declareAll (fun d hd => by simp [kinds d hd]) reported
  rwa [Model.RunsOwn, programs, managers]

theorem coherent_applyMeasures {m measured : Model} (h : Coherent m) {measures : List Measure}
    (applied : applyMeasures m measures = .ok measured) : Coherent measured := by
  unfold applyMeasures at applied
  split at applied
  · cases applied
    exact h
  · obtain ⟨next, left⟩ := Measure.model?_eq_ok_iff.1 applied
    have after := Measure.coherent_applyBatch h measures .first
    rwa [left] at after

theorem coherent_of_build {p : Project} {m : Model} (h : p.build = .ok m) : Coherent m := by
  obtain ⟨ds, xs, cs, managed, measured, os, -, a, -, applied, -, reported⟩ := exists_assembled h
  have complete := (coherent_applyMeasures a.coherent applied).declareAll os
  rwa [reported] at complete

end Project

/-! ## Main result -/

namespace Service

/-- An entry of a listing states the name, the length and the readings of a program. -/
structure ListedProgram.States (e : ListedProgram) (q : Program) : Prop where
  name : e.name = q.name.text
  lineCount : e.lineCount = q.body.lines.length
  reads : e.reads = q.body.reads.map Name.text

theorem states_listed (m : Model) (kind : BodyKind) (q : Program) : (listed m kind q).States q :=
  ⟨rfl, rfl, rfl⟩

/-- The listing of a project that can be built has an entry for every program of its model and then
    one for every subroutine, in order.  A program is listed with a calling manager and its calling
    point exactly when a manager of this name at this point runs it, in any spelling; there is no
    second one.  Subroutines are listed without. -/
theorem listing_of_build {p : Project} {m : Model} (h : p.build = .ok m) :
    ∃ es fs, (compile p).map listing = .ok (es ++ fs) ∧
      List.Forall₂ (fun e q => e.kind = .program ∧ e.States q ∧
        (m.runners q.name.text).length ≤ 1 ∧
        ∀ name point, e.schedule = some (name, point) ↔
          ∃ c ∈ m.runners q.name.text, c.name = name ∧ c.callingPoint = point) es m.programs ∧
      List.Forall₂ (fun e q => e.kind = .subroutine ∧ e.States q ∧ e.schedule = none)
        fs m.subroutines := by
  have coherent := Project.coherent_of_build h
  have own := Project.runsOwn_of_build h
  refine ⟨m.programs.map (listed m .program), m.subroutines.map (listed m .subroutine), ?_, ?_, ?_⟩
  · rw [compile, h]
    rfl
  · rw [List.forall₂_map_left_iff, List.forall₂_same]
    intro q hq
    exact ⟨rfl, states_listed m .program q, m.length_runners_le coherent own hq,
      fun name point => m.scheduleOf?_eq_some_iff coherent own hq⟩
  · rw [List.forall₂_map_left_iff, List.forall₂_same]
    intro q _
    exact ⟨rfl, states_listed m .subroutine q, rfl⟩

/-- A program of the project that runs a subroutine, beside the program of a measure. -/
def averaged : Project where
  version := 1
  name := "averaged"
  reporting := .silent
  sensors := []
  actuators := []
  globals := ["mode"]
  trends := []
  internals := []
  outputs := []
  tables := []
  programs :=
    [⟨"Reset", false, [.run "clear"], some ⟨.beginNewEnvironment, some "Morning"⟩⟩,
     ⟨"Clear", true, [.set "mode" "0"], none⟩]
  measures := [.zoneAverageTemperature { Measure.ZoneAverage.default with zones := ["Core"] }]

/-- Both programs are listed with their managers, the subroutine after them. -/
theorem listing_averaged : ∃ m, averaged.build = .ok m ∧
    ∃ reset average clear, (compile averaged).map listing = .ok [reset, average, clear] ∧
      reset.schedule = some ("Morning", .beginNewEnvironment) ∧
      average.schedule =
        some ("Average Building Temperature", .endOfZoneTimestepBeforeZoneReporting) ∧
      clear.schedule = none := by
  have checked : (averaged.build.toOption.any fun m => decide
      (m.programs.map (fun q => q.name.text) = ["Reset", "AverageZoneTemps"] ∧
        m.subroutines.length = 1 ∧
        (m.runners "Reset").map (fun c => (c.name, c.callingPoint)) =
          [("Morning", .beginNewEnvironment)] ∧
        (m.runners "AverageZoneTemps").map (fun c => (c.name, c.callingPoint)) =
          [("Average Building Temperature", .endOfZoneTimestepBeforeZoneReporting)])) = true := by
    decide +kernel
  obtain ⟨m, found, facts⟩ := (Option.any_eq_true _ _).1 checked
  have built := eq_ok_of_toOption found
  obtain ⟨names, subroutines, morning, average⟩ := of_decide_eq_true facts
  obtain ⟨es, fs, listed, programs, others⟩ := listing_of_build built
  have two : ∃ q r, m.programs = [q, r] ∧ q.name.text = "Reset" ∧
      r.name.text = "AverageZoneTemps" := by
    obtain ⟨q, rest, programs, reset, names⟩ := List.map_eq_cons_iff.1 names
    obtain ⟨r, rfl, average⟩ := List.map_eq_singleton_iff.1 names
    exact ⟨q, r, programs, reset, average⟩
  obtain ⟨q, r, programsEq, resetName, averageName⟩ := two
  obtain ⟨x, subroutinesEq⟩ := List.length_eq_one_iff.1 subroutines
  rw [programsEq] at programs
  rw [subroutinesEq] at others
  -- one entry for each of the three
  obtain ⟨e, _, first, more, rfl⟩ := List.forall₂_cons_right_iff.1 programs
  obtain ⟨f, _, second, none, rfl⟩ := List.forall₂_cons_right_iff.1 more
  obtain ⟨g, _, third, none', rfl⟩ := List.forall₂_cons_right_iff.1 others
  cases none
  cases none'
  obtain ⟨-, -, -, schedule⟩ := first
  obtain ⟨-, -, -, schedule'⟩ := second
  refine ⟨m, built, e, f, g, listed, ?_, ?_, third.2.2⟩
  · obtain ⟨c, runners, pair⟩ := List.map_eq_singleton_iff.1 morning
    obtain ⟨name, point⟩ := Prod.mk.inj pair
    rw [schedule, resetName, runners]
    exact ⟨c, List.mem_cons_self, name, point⟩
  · obtain ⟨c, runners, pair⟩ := List.map_eq_singleton_iff.1 average
    obtain ⟨name, point⟩ := Prod.mk.inj pair
    rw [schedule', averageName, runners]
    exact ⟨c, List.mem_cons_self, name, point⟩

end Service

end BuildingControl
