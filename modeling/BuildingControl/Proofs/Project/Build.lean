/-
  BuildingControl.Proofs.Project.Build

  The check of a project file against the build of its model (`build_checked`).
  What the check lets through the model accepts, names of calling managers apart:
  the check leaves them to the build, which puts programs together without regard
  to the case of ASCII letters, while the model tells managers apart by their
  upper case in all alphabets.  So two schedules for "é" and for "É" pass the
  check and are refused by the model.
-/
import BuildingControl.Proofs.Model.Check
import BuildingControl.Proofs.Project.Outcome

namespace BuildingControl

open Erl Model

namespace Project

/-! ## The check of the model -/

/-- Whether the check of a project file is to leave no room for a fault: names in use, texts of the
    building, controls, rows of a table, and references other than those of reported variables. -/
def isForeseen : Erl.Fault → Bool
  | .noRules => true
  | .noDefault => true
  | .nonFinite _ => true
  | .duplicateName _ => true
  | .invalidField _ _ _ => true
  | .unsupportedControl _ _ => true
  | .unknownReference _ (.output _) => false
  | .unknownReference _ _ => true
  | _ => false

theorem isForeseen_of_isTextual {f : Erl.Fault} (h : f.isTextual = true) :
    isForeseen f = false := by
  cases f <;> first | rfl | cases h

/-- The objects of a model that was put together from the empty one. -/
theorem mem_declarations_of_declareAll {r : Reporting} {ds : List Declaration} {m : Model}
    (h : (Model.empty.withReporting r).declareAll ds = (m, .ok ())) {d : Declaration}
    (kind : d.kind ≠ .request) : d ∈ m.declarations ↔ d ∈ ds := by
  obtain ⟨-, -, -, pushed⟩ := declareAll_eq_ok_iff.1 h
  have none : (Model.empty.withReporting r).objects d.kind = [] := objects_empty d.kind
  rw [mem_declarations, ← pushed, foldl_push_objects _ _ kind, none, List.nil_append,
    List.mem_filter]
  simp

/-- Only a `RUN` line runs something. -/
theorem LineEntry.eq_run {l : LineEntry} {s : Statement} {n : Name} (h : l.statement = .ok s)
    (runs : s.subroutine? = some n) : l = .run n.text := by
  cases l with
  | run subroutine =>
    obtain ⟨k, hk, rfl⟩ := map_eq_ok_iff.1 h
    cases runs
    rw [Name.ofText?_eq_ok_iff.1 hk]
  | set target value =>
    obtain ⟨_, -, h⟩ := bind_eq_ok_iff.1 h
    obtain ⟨_, -, h⟩ := bind_eq_ok_iff.1 h
    cases h
    cases runs
  | ifThen condition =>
    obtain ⟨_, -, rfl⟩ := map_eq_ok_iff.1 h
    cases runs
  | elseIf condition =>
    obtain ⟨_, -, rfl⟩ := map_eq_ok_iff.1 h
    cases runs
  | otherwise =>
    cases h
    cases runs
  | endIf =>
    cases h
    cases runs
  | leave =>
    cases h
    cases runs

/-- What a program of a sound project runs is one of its subroutines. -/
theorem Sound.runs_bound {p : Project} (h : p.Sound) {x : Item} (mem : .ok x ∈ p.items) :
    ∀ n ∈ x.program.body.runs,
      (Text.asciiUpper n.text, .subroutine) ∈ p.bindings.map Binding.entry := by
  intro n hn
  obtain ⟨s, hs, runs⟩ := Code.exists_of_mem_runs hn
  rcases List.mem_append.1 mem with mem | mem
  · obtain ⟨t, -, read⟩ := List.mem_map.1 mem
    obtain ⟨program, hp, rfl⟩ := map_eq_ok_iff.1 read
    obtain ⟨body, built, hp⟩ := bind_eq_ok_iff.1 hp
    obtain ⟨_, -, hp⟩ := bind_eq_ok_iff.1 hp
    cases hp
    -- the lines of a table run nothing
    have within := Scope.within_table (σ := ⟨fun _ => True, fun _ => True, fun _ => False⟩) built
      trivial (fun _ _ _ => ⟨trivial, fun _ _ _ => trivial⟩)
      (fun _ _ => ⟨trivial, fun _ _ _ => trivial⟩)
    exact ((within s hs).runs n runs).elim
  · obtain ⟨q, hq, read⟩ := List.mem_map.1 mem
    obtain ⟨program, hp, rfl⟩ := map_eq_ok_iff.1 read
    obtain ⟨statements, lines, hp⟩ := bind_eq_ok_iff.1 hp
    obtain ⟨_, -, hp⟩ := bind_eq_ok_iff.1 hp
    obtain ⟨body, made, hp⟩ := bind_eq_ok_iff.1 hp
    cases hp
    rw [Code.statements_of_ofStatements made] at hs
    obtain ⟨l, hl, line⟩ := exists_of_mem_forall₂ (eachOk_eq_ok_iff.1 lines).flip hs
    exact h.runs q hq n.text (LineEntry.eq_run line runs ▸ hl)

/-- What is scheduled is one of the programs, and no subroutine. -/
theorem Sound.scheduled_bound {p : Project} (h : p.Sound) {x : Item} (mem : .ok x ∈ p.items)
    {s : Schedule} (scheduled : x.schedule = some s) :
    (Text.asciiUpper x.program.name.text, .program) ∈ p.bindings.map Binding.entry := by
  rw [items_eq] at mem
  obtain ⟨part, hpart, read⟩ := List.mem_map.1 mem
  have becomes := h.becomes part hpart x read
  have bound : part.binding ∈ p.bindings := by
    rw [bindings_eq, programBindings_eq]
    exact List.mem_append_right _ (List.mem_map_of_mem hpart)
  have cls : part.binding.cls = .program := by
    rcases List.mem_append.1 hpart with hpart | hpart
    · obtain ⟨t, -, rfl⟩ := List.mem_map.1 hpart
      rfl
    · obtain ⟨q, hq, rfl⟩ := List.mem_map.1 hpart
      have schedule : q.schedule = some s := becomes.schedule.symm.trans scheduled
      refine if_neg fun subroutine => ?_
      rw [h.programs q hq subroutine] at schedule
      cases schedule
  rw [becomes.name, ← cls]
  exact List.mem_map_of_mem bound

/-- A trend of a sound project logs what it is declared to log. -/
theorem Sound.trend_source {p : Project} (h : p.Sound) {t : Trend}
    (mem : .ok (.trend t) ∈ p.variableSteps) :
    ∃ cls, (Text.asciiUpper t.source.text, cls) ∈ p.bindings.map Binding.entry ∧
      Model.isLogged cls = true := by
  simp only [variableSteps, List.mem_append, List.mem_map] at mem
  rcases mem with (⟨s, -, made⟩ | ⟨a, -, made⟩ | ⟨g, -, made⟩) | ⟨e, he, made⟩ | ⟨v, -, made⟩
  · obtain ⟨_, -, made⟩ := bind_eq_ok_iff.1 made
    cases made
  · obtain ⟨_, -, made⟩ := bind_eq_ok_iff.1 made
    obtain ⟨_, -, made⟩ := bind_eq_ok_iff.1 made
    cases made
  · obtain ⟨_, -, made⟩ := bind_eq_ok_iff.1 made
    cases made
  · obtain ⟨name, -, made⟩ := bind_eq_ok_iff.1 made
    obtain ⟨source, hs, made⟩ := bind_eq_ok_iff.1 made
    cases made
    obtain ⟨cls, bound, logged⟩ := (h.trends e he).source
    refine ⟨cls, ?_, ?_⟩
    · rwa [Name.ofText?_eq_ok_iff.1 hs]
    · cases cls <;> exact logged
  · obtain ⟨_, -, made⟩ := bind_eq_ok_iff.1 made
    cases made

/-- Reported variables become outputs. -/
theorem kind_of_allOk_outputs {p : Project} {os : List Declaration}
    (h : AllOk (p.outputs.map OutputEntry.declaration) os) {d : Declaration} (hd : d ∈ os) :
    d.kind = .output := by
  have made : .ok d ∈ p.outputs.map OutputEntry.declaration := by
    rw [h]
    exact List.mem_map_of_mem hd
  obtain ⟨o, -, made⟩ := List.mem_map.1 made
  obtain ⟨n, -, made⟩ := bind_eq_ok_iff.1 made
  cases made
  rfl

namespace Assembled

variable {p : Project} {ds os : List Declaration} {xs : List Item} {cs : List CallingManager}
  {m : Model} (a : p.Assembled ds xs cs os m)

include a

theorem coherent : Coherent m := by
  have built := (coherent_empty.withReporting p.reporting).declareAll
    (ds ++ xs.map Item.declaration ++ (cs.map .manager ++ os))
  rw [a.declared] at built
  exact built

theorem mem_declarations {d : Declaration} (kind : d.kind ≠ .request) : d ∈ m.declarations ↔
    (d ∈ ds ∨ d ∈ xs.map Item.declaration) ∨ d ∈ cs.map .manager ∨ d ∈ os := by
  rw [mem_declarations_of_declareAll a.declared kind, List.mem_append, List.mem_append,
    List.mem_append]

/-- A declared name stands in the model for what it was declared as, in any spelling. -/
theorem lookup?_eq (sound : p.Sound) {text : String} {cls : NameClass}
    (bound : (Text.asciiUpper text, cls) ∈ p.bindings.map Binding.entry) :
    m.lookup? text = some cls := by
  obtain ⟨b, hb, entry⟩ := List.mem_map.1 bound
  obtain ⟨key, rfl⟩ := Prod.mk.inj entry
  obtain ⟨d, hd, into⟩ := exists_of_mem_forall₂ (sound.into_bindings a.into a.programs) hb
  obtain ⟨n, declares, name⟩ := into.declares
  have kind : d.kind ≠ .request := by
    cases d with
    | request r => cases declares
    | _ => exact nofun
  have mem : d ∈ m.declarations := (a.mem_declarations kind).2 (.inl (List.mem_append.1 hd))
  have found := a.coherent.names d mem _ declares
  rwa [Name.key, name, key] at found

theorem kind_of_mem_variables {d : Declaration} (hd : d ∈ ds) :
    d.kind ≠ .program ∧ d.kind ≠ .subroutine ∧ d.kind ≠ .manager := by
  obtain ⟨b, hb, into⟩ := exists_of_mem_forall₂ a.into.flip hd
  have isVariable : b.cls.isVariable = true := by
    simp only [variableBindings, earlyBindings, List.mem_append, List.mem_map] at hb
    rcases hb with (⟨_, -, rfl⟩ | ⟨_, -, rfl⟩ | ⟨_, -, rfl⟩) | ⟨_, -, rfl⟩ | ⟨_, -, rfl⟩ <;> rfl
  obtain ⟨n, declares, -⟩ := into.declares
  cases d with
  | program q =>
    rw [← (Prod.mk.inj (Option.some.inj declares)).2] at isVariable
    cases isVariable
  | subroutine q =>
    rw [← (Prod.mk.inj (Option.some.inj declares)).2] at isVariable
    cases isVariable
  | manager c => cases declares
  | _ => simp [Declaration.kind]

theorem kind_of_mem_outputs {d : Declaration} (hd : d ∈ os) : d.kind = .output :=
  kind_of_allOk_outputs a.outputs hd

/-- The programs of the model are those of the project. -/
theorem exists_item {q : Program} (mem : q ∈ m.programs ++ m.subroutines) :
    ∃ x ∈ xs, x.program = q := by
  have object : ∃ d ∈ m.declarations, d = .program q ∨ d = .subroutine q := by
    rcases List.mem_append.1 mem with mem | mem
    · exact ⟨.program q, Model.mem_declarations.2 (List.mem_map_of_mem mem), .inl rfl⟩
    · exact ⟨.subroutine q, Model.mem_declarations.2 (List.mem_map_of_mem mem), .inr rfl⟩
  obtain ⟨d, hd, isProgram⟩ := object
  have kind : d.kind = .program ∨ d.kind = .subroutine := by
    rcases isProgram with rfl | rfl
    · exact .inl rfl
    · exact .inr rfl
  have notRequest : d.kind ≠ .request := by rcases kind with h | h <;> simp [h]
  rcases (a.mem_declarations notRequest).1 hd with (hd | hd) | hd | hd
  · obtain ⟨notProgram, notSubroutine, -⟩ := a.kind_of_mem_variables hd
    exact (kind.elim notProgram notSubroutine).elim
  · obtain ⟨x, hx, rfl⟩ := List.mem_map.1 hd
    refine ⟨x, hx, ?_⟩
    unfold Item.declaration at isProgram
    split at isProgram <;> simpa using isProgram
  · obtain ⟨c, -, rfl⟩ := List.mem_map.1 hd
    rcases kind with h | h <;> cases h
  · rw [a.kind_of_mem_outputs hd] at kind
    rcases kind with h | h <;> cases h

theorem mem_trends {t : Trend} (mem : t ∈ m.trends) : .ok (.trend t) ∈ p.variableSteps := by
  have object : .trend t ∈ m.declarations := Model.mem_declarations.2 (List.mem_map_of_mem mem)
  rcases (a.mem_declarations (by simp [Declaration.kind])).1 object with (hd | hd) | hd | hd
  · rw [a.entries]
    exact List.mem_map_of_mem hd
  · obtain ⟨x, -, made⟩ := List.mem_map.1 hd
    unfold Item.declaration at made
    split at made <;> cases made
  · obtain ⟨c, -, made⟩ := List.mem_map.1 hd
    cases made
  · cases a.kind_of_mem_outputs hd

/-- The managers of the model are those that the programs were put into. -/
theorem managers_eq : m.managers = cs := by
  obtain ⟨-, -, -, pushed⟩ := declareAll_eq_ok_iff.1 a.declared
  have none (es : List Declaration) (other : ∀ d ∈ es, d.kind ≠ .manager) :
      es.filter (fun d => d.kind = .manager) = [] :=
    List.filter_eq_nil_iff.2 fun d hd => by simpa using other d hd
  have variables' := none ds fun d hd => (a.kind_of_mem_variables hd).2.2
  have outputs' := none os fun d hd => by simp [a.kind_of_mem_outputs hd]
  have programs' : (xs.map Item.declaration).filter (fun d => d.kind = .manager) = [] := by
    refine none _ fun d hd => ?_
    obtain ⟨x, -, rfl⟩ := List.mem_map.1 hd
    unfold Item.declaration
    split <;> nofun
  have managers' : (cs.map Declaration.manager).filter (fun d => d.kind = .manager) =
      cs.map Declaration.manager := by
    refine List.filter_eq_self.2 fun d hd => ?_
    obtain ⟨c, -, rfl⟩ := List.mem_map.1 hd
    rfl
  have objects : m.managers.map Declaration.manager = cs.map Declaration.manager := by
    have all := foldl_push_objects (Model.empty.withReporting p.reporting)
      (ds ++ xs.map Item.declaration ++ (cs.map .manager ++ os)) (k := .manager) nofun
    rw [pushed, List.filter_append, List.filter_append, List.filter_append, variables', programs',
      managers', outputs', List.nil_append, List.append_nil] at all
    exact all
  exact List.map_injective_iff.2 (fun _ _ => Declaration.manager.inj) objects

/-- What can be wrong with the model of a sound project is none of what was foreseen. -/
theorem onFault_check (sound : p.Sound) : OnFault (fun f => isForeseen f = false) m.check := by
  have body {place : Erl.Place} {q : Program} (mem : q ∈ m.programs ++ m.subroutines) :
      OnFault (fun f => isForeseen f = false) (m.checkBody place q.body) := by
    refine (OnFault.allOk fun n _ => ?_).bind fun _ _ =>
      (OnFault.allOk fun n _ => ?_).bind fun _ _ => OnFault.allOk fun n hn => ?_
    · unfold checkRead
      split
      · exact onFault_ok _
      · exact onFault_error.2 rfl
    · intro fault failed
      obtain ⟨cls, -, -, rfl⟩ := checkWrite_eq_error failed
      rfl
    · obtain ⟨x, hx, rfl⟩ := a.exists_item mem
      have read : .ok x ∈ p.items := by
        rw [a.programs]
        exact List.mem_map_of_mem hx
      have found := a.lookup?_eq sound (sound.runs_bound read n hn)
      rw [checkReference_eq_ok found rfl]
      exact onFault_ok _
  refine (OnFault.allOk fun q hq => body (List.mem_append_left _ hq)).bind fun _ _ =>
    (OnFault.allOk fun q hq => body (List.mem_append_right _ hq)).bind fun _ _ =>
    (OnFault.allOk fun c hc => OnFault.allOk fun n hn => ?_).bind fun _ _ =>
    (OnFault.allOk fun t ht => ?_).bind fun _ _ => OnFault.allOk fun o _ => ?_
  · rw [a.managers_eq] at hc
    obtain ⟨s, hs, -⟩ := (a.managed.programs c hc n).1 hn
    obtain ⟨x, hx, scheduled⟩ := List.mem_filterMap.1 hs
    obtain ⟨_, schedule, same⟩ := Option.map_eq_some_iff.1 scheduled
    obtain ⟨rfl, rfl⟩ := Prod.mk.inj same
    have read : .ok x ∈ p.items := by
      rw [a.programs]
      exact List.mem_map_of_mem hx
    rw [checkReference_eq_ok (a.lookup?_eq sound (sound.scheduled_bound read schedule)) rfl]
    exact onFault_ok _
  · obtain ⟨cls, bound, logged⟩ := sound.trend_source (a.mem_trends ht)
    rw [checkReference_eq_ok (a.lookup?_eq sound bound) logged]
    exact onFault_ok _
  · unfold checkReference
    split
    · exact onFault_ok _
    · exact onFault_error.2 rfl

theorem isForeseen_of_check (sound : p.Sound) {f : Erl.Fault}
    (failed : (m.check.mapError Fault.program).map (fun _ => m) = .error (.program f)) :
    isForeseen f = false := by
  cases result : m.check with
  | ok u =>
    rw [result] at failed
    cases failed
  | error fault =>
    rw [result] at failed
    cases failed
    exact a.onFault_check sound f result

/-- Scheduled programs share a manager of the model exactly when the model takes the names of their
    managers for one. -/
theorem shared_iff (sound : p.Sound) (clear : ¬ Clash p.schedules) :
    ∀ e ∈ p.scheduled, ∀ f ∈ p.scheduled,
      ((∃ c ∈ m.managers, e.1 ∈ c.programs.map Name.text ∧ f.1 ∈ c.programs.map Name.text) ↔
        Text.upper e.2.managerName = Text.upper f.2.managerName) := by
  have once : ((xs.filterMap Item.scheduled?).map Prod.fst).Nodup := by
    have apart := sound.apart_items
    rw [a.programs, List.pairwise_map] at apart
    rw [List.Nodup, List.pairwise_map, List.pairwise_filterMap]
    refine apart.imp fun ne e he f hf same => ?_
    obtain ⟨_, -, rfl⟩ := Option.map_eq_some_iff.1 he
    obtain ⟨_, -, rfl⟩ := Option.map_eq_some_iff.1 hf
    exact ne _ _ rfl rfl (congrArg Name.key same)
  have text {c : CallingManager} {n : Name} : n.text ∈ c.programs.map Name.text ↔ n ∈ c.programs := by
    constructor
    · intro mem
      obtain ⟨k, hk, same⟩ := List.mem_map.1 mem
      rwa [← Name.eq_of_text same]
    · exact List.mem_map_of_mem
  rw [← sound.schedules_of_items a.programs] at clear
  rw [a.managers_eq, ← sound.scheduled_eq a.programs]
  simp only [List.forall_mem_map, text]
  exact fun e he f hf => a.managed.shared_iff once clear he hf

end Assembled

/-! ## Main result -/

/-- Whether the text of every table and program can be read as a program. -/
def Readable (p : Project) : Prop :=
  (∀ t ∈ p.tables, ∃ q, t.program = .ok q) ∧ ∀ e ∈ p.programs, ∃ q, e.program = .ok q

theorem readable_iff {p : Project} : p.Readable ↔ ∃ xs, AllOk p.items xs := by
  have made {α : Type} {x : Except Erl.Fault Program} {f : Program → α} :
      (∃ y, x.map f = .ok y) ↔ ∃ q, x = .ok q := by
    cases x <;> simp [Except.map]
  simp only [exists_allOk_iff, items, List.forall_mem_append, List.forall_mem_map,
    TableEntry.item, ProgramEntry.item, made, Readable]

/-- A checked project without measures has none of the faults that its check is to leave no room
    for, but one: two schedules may name managers that the check takes for different and the model
    for one.  The model is refused for a name exactly when it comes to its managers and there are
    such schedules; if it is built, programs share a manager exactly when the model takes the names
    of their managers for one. -/
theorem build_checked {p : Project} (checked : p.check = .ok ()) (alone : p.measures = []) :
    (∀ f, p.build = .error (.program f) → isForeseen f = true → ∃ name, f = .duplicateName name) ∧
    ((∃ name, p.build = .error (.program (.duplicateName name))) ↔
      p.Readable ∧ OnePoint p.schedules ∧ Clash p.schedules) ∧
    ∀ m, p.build = .ok m → ∀ e ∈ p.scheduled, ∀ f ∈ p.scheduled,
      ((∃ c ∈ m.managers, e.1 ∈ c.programs.map Name.text ∧ f.1 ∈ c.programs.map Name.text) ↔
        Text.upper e.2.managerName = Text.upper f.2.managerName) := by
  have sound := sound_of_check checked
  have outcome := outcome_of_check checked alone
  have text (f : Erl.Fault) (mem : .error f ∈ p.items) : isForeseen f = false :=
    isForeseen_of_isTextual (sound.textual f mem)
  generalize p.build = result at outcome
  refine ⟨fun f failed foreseen => ?_, ⟨?_, ?_⟩, ?_⟩
  · cases outcome with
    | text mem =>
      cases failed
      rw [text f mem] at foreseen
      cases foreseen
    | point apart => cases failed
    | clash read one clash =>
      cases failed
      exact ⟨_, rfl⟩
    | built a one clear =>
      rw [a.isForeseen_of_check sound failed] at foreseen
      cases foreseen
  · rintro ⟨name, failed⟩
    cases outcome with
    | text mem =>
      cases failed
      cases text _ mem
    | point apart => cases failed
    | clash read one clash => exact ⟨readable_iff.2 ⟨_, read⟩, one, clash⟩
    | built a one clear => cases a.isForeseen_of_check sound failed
  · rintro ⟨readable, one, clash⟩
    cases outcome with
    | text mem =>
      obtain ⟨xs, read⟩ := readable_iff.1 readable
      rw [read] at mem
      obtain ⟨x, -, same⟩ := List.mem_map.1 mem
      cases same
    | point apart => exact absurd one apart
    | clash read one clash => exact ⟨_, rfl⟩
    | built a one clear => exact absurd clash clear
  · intro m built
    cases outcome with
    | text mem => cases built
    | point apart => cases built
    | clash read one clash => cases built
    | built a one clear =>
      obtain ⟨_, -, rfl⟩ := map_eq_ok_iff.1 built
      exact a.shared_iff sound clear

/-- Two programs at one calling point, the first in the manager "é", the second in "É". -/
def accented : Project where
  version := 1
  name := "accented"
  reporting := .silent
  sensors := []
  actuators := []
  globals := []
  trends := []
  internals := []
  outputs := []
  tables := []
  programs :=
    [⟨"First", false, [.leave], some ⟨.endOfZoneSizing, some "é"⟩⟩,
     ⟨"Second", false, [.leave], some ⟨.endOfZoneSizing, some "É"⟩⟩]
  measures := []

/-- The check takes "é" and "É" for two managers, the model for one. -/
theorem build_accented : accented.check = .ok () ∧ accented.measures = [] ∧
    ∃ name, accented.build = .error (.program (.duplicateName name)) := by
  have checked : accented.check = .ok () := eq_ok_of_toOption (by decide +kernel)
  have readable : accented.Readable := by
    refine ⟨nofun, fun q hq => exists_of_isOk ?_⟩
    have each : accented.programs.all (fun q => q.program.isOk) = true := by decide +kernel
    exact List.all_eq_true.1 each q hq
  have point : ∀ s ∈ accented.schedules, s.callingPoint = .endOfZoneSizing := by decide
  have one : OnePoint accented.schedules :=
    fun s hs t ht _ => (point s hs).trans (point t ht).symm
  have clash : Clash accented.schedules :=
    ⟨⟨.endOfZoneSizing, some "é"⟩, .head _, ⟨.endOfZoneSizing, some "É"⟩, .tail _ (.head _),
      by decide +kernel, by decide +kernel⟩
  exact ⟨checked, rfl, (build_checked checked rfl).2.1.2 ⟨readable, one, clash⟩⟩

end Project

end BuildingControl
