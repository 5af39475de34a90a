/-
  BuildingControl.Proofs.Measure.Reference

  What the names in a finished script stand for.  A part of a script declares its
  names in the model that the script leads to (`declares_of_part`), and the model
  declares no others (`exists_of_lookup?`).  What holds of every object that a
  script can make holds of the objects of the model, which is how its references
  are looked at (`closed_of_run`).
-/
import BuildingControl.Proofs.Measure.Script
import BuildingControl.Proofs.Model.Check
import BuildingControl.Proofs.Model.Execution
import BuildingControl.Proofs.Model.InStep

namespace BuildingControl.Measure

open Erl Model

namespace Script

/-! ## Units one by one -/

/-- Without a fault every unit gets the number of its place. -/
theorem forEach_eq {α : Type} {a : Numbering} {units : List α} {part : α → Nat → Script}
    {ds : List Declaration} (h : AllOk (forEach a units part) ds) :
    forEach a units part = (units.zipIdx a.next).flatMap fun u => part u.1 u.2 := by
  induction units generalizing a ds with
  | nil => rfl
  | cons x units ih =>
    rw [forEach] at h ⊢
    cases ha : a.advance with
    | error fault =>
      rw [ha] at h
      cases ds <;> cases h
    | ok taken =>
      obtain ⟨n, b⟩ := taken
      obtain ⟨c, hc, he⟩ := map_eq_ok_iff.1 ha
      cases he
      rw [ha] at h
      obtain ⟨_, es, -, hes, -⟩ := allOk_append_iff.1 h
      rw [List.zipIdx_cons, List.flatMap_cons]
      dsimp only
      rw [ih hes, Numbering.next_of_skip hc]

/-! ## Objects by the spelling of their names -/

theorem allOk_sensor_iff {name key output : String} {ds : List Declaration} :
    AllOk (sensor name key output) ds ↔
      ∃ n : Name, n.text = name ∧ [.sensor ⟨n, key, output⟩] = ds := by
  rw [sensor, allOk_one_iff]
  simp [bind_eq_ok_iff, Name.ofText?_eq_ok_iff, pure, Except.pure]

theorem allOk_trend_iff {name source : String} {timesteps : Nat} {ds : List Declaration} :
    AllOk (trend name source timesteps) ds ↔ ∃ n k : Name, n.text = name ∧ k.text = source ∧
      [.trend ⟨n, k, timesteps⟩] = ds := by
  rw [trend, allOk_one_iff]
  simp [bind_eq_ok_iff, Name.ofText?_eq_ok_iff, pure, Except.pure]

theorem allOk_output_iff {name source : String} {frequency : UpdateFrequency}
    {units : Option String} {ds : List Declaration} :
    AllOk (output name source frequency units) ds ↔
      ∃ n : Name, n.text = source ∧ [.output ⟨name, n, .averaged, frequency, units⟩] = ds := by
  rw [output, allOk_one_iff]
  simp [bind_eq_ok_iff, Name.ofText?_eq_ok_iff, pure, Except.pure]

/-- A requirement adds no object. -/
theorem onResults_require {α : Type} {check : Except Fault α} {P : Declaration → Prop} :
    OnResults P (require check) := by
  cases check <;> simp [require]

/-- Without a fault a requirement is met. -/
theorem exists_of_allOk_require {α : Type} {check : Except Fault α} {ds : List Declaration}
    (h : AllOk (require check) ds) : ∃ x, check = .ok x := by
  cases check with
  | error fault => cases ds <;> cases h
  | ok x => exact ⟨x, rfl⟩

/-- A part of a script that is a single program of this name, or a fault. -/
def IsProgram (part : Script) (name : String) (body : Except Erl.Fault Code) : Prop :=
  ∀ ds, AllOk part ds → ∃ (n : Name) (c : Code), n.text = name ∧ body = .ok c ∧
    [.program ⟨n, c⟩] = ds

theorem isProgram_program {name : String} {body : Draft} :
    IsProgram (program name body) name body.build :=
  fun _ all => allOk_program_iff.1 all

theorem onResults_one {P : Declaration → Prop} {d : Except Erl.Fault Declaration}
    (h : ∀ ds, AllOk (one d) ds → ∀ x ∈ ds, P x) : OnResults P (one d) := by
  cases d with
  | error fault => simp [one, Except.mapError]
  | ok x =>
    have all : AllOk (one (.ok x)) [x] := rfl
    have hx := h [x] all x List.mem_cons_self
    simpa [one, Except.mapError] using hx

/-! ## The names of the model -/

section Run

variable {s : Script} {m : Model} (h : s.run .empty = .ok m)

include h

/-- The objects of a script are those of the model, requests aside. -/
theorem mem_declarations_iff {d : Declaration} (kind : d.kind ≠ .request) :
    d ∈ m.declarations ↔ .ok d ∈ s := by
  obtain ⟨ds, all, added⟩ := run_eq_ok_iff.1 h
  obtain ⟨-, -, -, rfl⟩ := declareAll_eq_ok_iff.1 added
  rw [AllOk] at all
  rw [mem_declarations, foldl_push_objects _ _ kind, objects_empty, List.nil_append,
    List.mem_filter, all]
  simp

/-- An object of a script declares its name. -/
theorem lookup?_of_mem {d : Declaration} {e : Name × NameClass} (hd : .ok d ∈ s)
    (he : d.binding? = some e) : m.lookup? e.1.text = some e.2 := by
  have declared := (mem_declarations_iff h (d.kind_of_binding? he)).2 hd
  exact (coherent_run coherent_empty h).names d declared e he

/-- Every name of the model was declared by an object of the script. -/
theorem exists_of_lookup? {text : String} {cls : NameClass} (found : m.lookup? text = some cls) :
    ∃ d n, .ok d ∈ s ∧ d.binding? = some (n, cls) ∧ n.key = Text.asciiUpper text := by
  have coherent := coherent_run coherent_empty h
  obtain ⟨⟨n, _⟩, declared, same, rfl⟩ := coherent.lookup?_eq_some_iff.1 found
  obtain ⟨d, hd, he⟩ := mem_declared.1 declared
  exact ⟨d, n, (mem_declarations_iff h (d.kind_of_binding? he)).1 hd, he,
    Text.sameLetters_iff.1 same⟩

/-- A part of a script has no fault, and its objects are objects of the script. -/
theorem exists_of_part {part : Script} (sub : part ⊆ s) :
    ∃ ds, AllOk part ds ∧ ∀ d ∈ ds, .ok d ∈ s := by
  obtain ⟨ds, all, -⟩ := run_eq_ok_iff.1 h
  obtain ⟨es, ofPart, within⟩ := all.exists_of_subset sub
  refine ⟨es, ofPart, fun d hd => ?_⟩
  rw [AllOk] at all
  rw [all]
  exact List.mem_map_of_mem (within hd)

/-- A part of a script declares the name of its object. -/
theorem declares_of_part {part : Script} (sub : part ⊆ s) {name : String} {cls : NameClass}
    (binds : ∀ ds, AllOk part ds →
      ∃ d ∈ ds, ∃ n : Name, d.binding? = some (n, cls) ∧ n.text = name) :
    m.Declares name cls := by
  obtain ⟨ds, ofPart, within⟩ := exists_of_part h sub
  obtain ⟨d, hd, n, binding, rfl⟩ := binds ds ofPart
  have found := lookup?_of_mem h (within d hd) binding
  exact ⟨n.isWord, found⟩

theorem declares_sensor {name key output : String} (sub : sensor name key output ⊆ s) :
    m.Declares name .sensor := by
  refine declares_of_part h sub fun ds all => ?_
  obtain ⟨n, hn, rfl⟩ := allOk_sensor_iff.1 all
  exact ⟨_, List.mem_cons_self, n, rfl, hn⟩

theorem declares_actuator {name component control : String} {kind : ComponentKind}
    (sub : actuator name component kind control ⊆ s) : m.Declares name .actuator := by
  refine declares_of_part h sub fun ds all => ?_
  obtain ⟨n, x, hn, hx, rfl⟩ := allOk_actuator_iff.1 all
  exact ⟨_, List.mem_cons_self, x.name, rfl, by rw [name_of_ofComponent hx, hn]⟩

theorem declares_global {name : String} (sub : global name ⊆ s) : m.Declares name .global := by
  refine declares_of_part h sub fun ds all => ?_
  obtain ⟨n, hn, rfl⟩ := allOk_global_iff.1 all
  exact ⟨_, List.mem_cons_self, n, rfl, hn⟩

theorem declares_trend {name source : String} {timesteps : Nat}
    (sub : trend name source timesteps ⊆ s) : m.Declares name .trend := by
  refine declares_of_part h sub fun ds all => ?_
  obtain ⟨n, k, hn, -, rfl⟩ := allOk_trend_iff.1 all
  exact ⟨_, List.mem_cons_self, n, rfl, hn⟩

theorem declares_internal {name key dataType : String} (sub : internal name key dataType ⊆ s) :
    m.Declares name .internal := by
  refine declares_of_part h sub fun ds all => ?_
  obtain ⟨n, hn, rfl⟩ := allOk_internal_iff.1 all
  exact ⟨_, List.mem_cons_self, n, rfl, hn⟩

theorem declares_program {part : Script} {name : String} {body : Except Erl.Fault Code}
    (program : IsProgram part name body) (sub : part ⊆ s) : m.Declares name .program := by
  refine declares_of_part h sub fun ds all => ?_
  obtain ⟨n, c, hn, -, rfl⟩ := program ds all
  exact ⟨_, List.mem_cons_self, n, rfl, hn⟩

theorem declares_subroutine {name : String} {body : Except Erl.Fault Code}
    (sub : subroutine name body ⊆ s) : m.Declares name .subroutine := by
  refine declares_of_part h sub fun ds all => ?_
  obtain ⟨n, c, hn, -, rfl⟩ := allOk_subroutine_iff.1 all
  exact ⟨_, List.mem_cons_self, n, rfl, hn⟩

/-- The objects of a part of a script are listed in the model under their kinds. -/
theorem mem_objects_of_mem {d : Declaration} (hd : .ok d ∈ s) (kind : d.kind ≠ .request) :
    d ∈ m.objects d.kind :=
  mem_declarations.1 ((mem_declarations_iff h kind).2 hd)

theorem exists_sensor_of_part {name key output : String} (sub : sensor name key output ⊆ s) :
    ∃ x ∈ m.sensors, x.name.text = name ∧ x.key = key ∧ x.output = output := by
  obtain ⟨ds, ofPart, within⟩ := exists_of_part h sub
  obtain ⟨n, hn, rfl⟩ := allOk_sensor_iff.1 ofPart
  obtain ⟨x, hx, same⟩ := List.mem_map.1 (mem_objects_of_mem h (within _ List.mem_cons_self) nofun)
  cases same
  exact ⟨_, hx, hn, rfl, rfl⟩

theorem exists_actuator_of_part {name component control : String} {kind : ComponentKind}
    (sub : actuator name component kind control ⊆ s) : ∃ x ∈ m.actuators, x.name.text = name ∧
      Actuator.ofComponent x.name ⟨component, kind⟩ control = .ok x := by
  obtain ⟨ds, ofPart, within⟩ := exists_of_part h sub
  obtain ⟨n, x, hn, hx, rfl⟩ := allOk_actuator_iff.1 ofPart
  obtain ⟨y, hy, same⟩ := List.mem_map.1 (mem_objects_of_mem h (within _ List.mem_cons_self) nofun)
  cases same
  rw [← name_of_ofComponent hx] at hn hx
  exact ⟨_, hy, hn, hx⟩

theorem exists_global_of_part {name : String} (sub : global name ⊆ s) :
    ∃ g ∈ m.globals, g.text = name := by
  obtain ⟨ds, ofPart, within⟩ := exists_of_part h sub
  obtain ⟨n, hn, rfl⟩ := allOk_global_iff.1 ofPart
  obtain ⟨g, hg, same⟩ := List.mem_map.1 (mem_objects_of_mem h (within _ List.mem_cons_self) nofun)
  cases same
  exact ⟨_, hg, hn⟩

theorem exists_trend_of_part {name source : String} {timesteps : Nat}
    (sub : trend name source timesteps ⊆ s) :
    ∃ t ∈ m.trends, t.name.text = name ∧ t.source.text = source := by
  obtain ⟨ds, ofPart, within⟩ := exists_of_part h sub
  obtain ⟨n, k, hn, hk, rfl⟩ := allOk_trend_iff.1 ofPart
  obtain ⟨t, ht, same⟩ := List.mem_map.1 (mem_objects_of_mem h (within _ List.mem_cons_self) nofun)
  cases same
  exact ⟨_, ht, hn, hk⟩

/-- A program of a script is one of the model, with the same lines. -/
theorem exists_program_of_part {part : Script} {name : String} {body : Except Erl.Fault Code}
    (program : IsProgram part name body) (sub : part ⊆ s) :
    ∃ p ∈ m.programs, body = .ok p.body := by
  obtain ⟨ds, ofPart, within⟩ := exists_of_part h sub
  obtain ⟨n, c, -, hc, rfl⟩ := program ds ofPart
  obtain ⟨p, hp, same⟩ := List.mem_map.1 (mem_objects_of_mem h (within _ List.mem_cons_self) nofun)
  cases same
  exact ⟨_, hp, hc⟩

theorem exists_subroutine_of_part {name : String} {body : Except Erl.Fault Code}
    (sub : subroutine name body ⊆ s) : ∃ p ∈ m.subroutines, body = .ok p.body := by
  obtain ⟨ds, ofPart, within⟩ := exists_of_part h sub
  obtain ⟨n, c, -, hc, rfl⟩ := allOk_subroutine_iff.1 ofPart
  obtain ⟨p, hp, same⟩ := List.mem_map.1 (mem_objects_of_mem h (within _ List.mem_cons_self) nofun)
  cases same
  exact ⟨_, hp, hc⟩

end Run

/-! ## Programs that run -/

section Running

variable {s : Script} {m : Model} (h : s.run .empty = .ok m)

include h

/-- Running a program of a script runs its lines. -/
theorem runProgram_of_part {part : Script} {name : String} {body : Except Erl.Fault Code}
    (program : IsProgram part name body) (sub : part ⊆ s) :
    ∃ p ∈ m.programs, p.name.text = name ∧ body = .ok p.body ∧
      ∀ {S : Type} (machine : Machine S) (depth : Nat) (σ : S),
        m.runProgram machine (depth + 1) name σ =
          machine.run (m.call machine depth) [] p.body.statements σ := by
  obtain ⟨ds, ofPart, within⟩ := exists_of_part h sub
  obtain ⟨n, c, hn, hc, rfl⟩ := program ds ofPart
  obtain ⟨p, hp, same⟩ := List.mem_map.1 (mem_objects_of_mem h (within _ List.mem_cons_self) nofun)
  cases same
  refine ⟨_, hp, hn, hc, fun machine depth σ => ?_⟩
  have found := (coherent_run coherent_empty h).find?_of_mem (List.sublist_append_left _ _) hp
    (congrArg Text.asciiUpper hn)
  have letters : (fun q : Program => Text.sameLetters q.name.text name) =
      fun q => decide (q.name.key = Text.asciiUpper name) := rfl
  rw [runProgram, letters, found]
  rfl

/-- Running a subroutine of a script runs its lines. -/
theorem call_of_part {name : String} {body : Except Erl.Fault Code}
    (sub : subroutine name body ⊆ s) :
    ∃ p ∈ m.subroutines, p.name.text = name ∧ body = .ok p.body ∧
      ∀ {S : Type} (machine : Machine S) (depth : Nat) (n : Name) (σ : S), n.text = name →
        m.call machine (depth + 1) n σ =
          machine.run (m.call machine depth) [] p.body.statements σ := by
  obtain ⟨ds, ofPart, within⟩ := exists_of_part h sub
  obtain ⟨k, c, hk, hc, rfl⟩ := allOk_subroutine_iff.1 ofPart
  obtain ⟨p, hp, same⟩ := List.mem_map.1 (mem_objects_of_mem h (within _ List.mem_cons_self) nofun)
  cases same
  refine ⟨_, hp, hk, hc, fun machine depth n σ hn => ?_⟩
  have named : _ = n.key := congrArg Text.asciiUpper (hk.trans hn.symm)
  have found := (coherent_run coherent_empty h).find?_of_mem (List.sublist_append_right _ _) hp
    named
  rw [call, subroutine?, found]
  rfl

end Running

/-! ## Closed scripts -/

/-- Every reference of an object leads somewhere, local names aside. -/
def Leads (m : Model) (locals : List String) : Declaration → Prop
  | .program p => m.ClosedBody locals p.body
  | .subroutine p => m.ClosedBody locals p.body
  | .manager c => ∀ p ∈ c.programs, m.lookup? p.text = some .program
  | .trend t => ∃ cls, m.lookup? t.source.text = some cls ∧ isLogged cls = true
  | .output o => ∃ cls, m.lookup? o.source.text = some cls ∧ cls.isVariable = true
  | _ => True

/-- A script whose objects refer to what it declares leads to a closed model. -/
theorem closed_of_run {s : Script} {m : Model} (h : s.run .empty = .ok m) {locals : List String}
    (leads : OnResults (Leads m locals) s)
    (used : ∀ l ∈ locals, ∃ p ∈ m.programs ++ m.subroutines, ∃ n ∈ p.body.writes, n.text = l) :
    m.Closed locals := by
  have each {d : Declaration} (hd : d ∈ m.objects d.kind) (kind : d.kind ≠ .request) :
      Leads m locals d :=
    leads d ((mem_declarations_iff h kind).1 (mem_declarations.2 hd))
  exact {
    programs := fun p hp => each (d := .program p) (List.mem_map_of_mem hp) nofun
    subroutines := fun p hp => each (d := .subroutine p) (List.mem_map_of_mem hp) nofun
    managers := fun c hc => each (d := .manager c) (List.mem_map_of_mem hc) nofun
    trends := fun t ht => each (d := .trend t) (List.mem_map_of_mem ht) nofun
    outputs := fun o ho => each (d := .output o) (List.mem_map_of_mem ho) nofun
    used := used }

section Objects

variable {m : Model} {locals given : List String}

theorem leads_sensor {name key output : String} :
    OnResults (Leads m locals) (sensor name key output) := by
  refine onResults_one fun ds all => ?_
  obtain ⟨n, -, rfl⟩ := allOk_sensor_iff.1 all
  exact List.forall_mem_singleton.2 trivial

theorem leads_actuator {name component control : String} {kind : ComponentKind} :
    OnResults (Leads m locals) (actuator name component kind control) := by
  refine onResults_one fun ds all => ?_
  obtain ⟨n, x, -, -, rfl⟩ := allOk_actuator_iff.1 all
  exact List.forall_mem_singleton.2 trivial

theorem leads_global {name : String} : OnResults (Leads m locals) (global name) := by
  refine onResults_one fun ds all => ?_
  obtain ⟨n, -, rfl⟩ := allOk_global_iff.1 all
  exact List.forall_mem_singleton.2 trivial

theorem leads_internal {name key dataType : String} :
    OnResults (Leads m locals) (internal name key dataType) := by
  refine onResults_one fun ds all => ?_
  obtain ⟨n, -, rfl⟩ := allOk_internal_iff.1 all
  exact List.forall_mem_singleton.2 trivial

theorem leads_request {key variableName : String} {frequency : ReportingFrequency} :
    OnResults (Leads m locals) (request key variableName frequency) := by
  rw [request, one, onResults_singleton]
  intro x hx
  cases hx
  trivial

theorem leads_trend {name source : String} {timesteps : Nat} {cls : NameClass}
    (found : m.lookup? source = some cls) (logged : isLogged cls = true) :
    OnResults (Leads m locals) (trend name source timesteps) := by
  refine onResults_one fun ds all => ?_
  obtain ⟨n, k, -, rfl, rfl⟩ := allOk_trend_iff.1 all
  exact List.forall_mem_singleton.2 ⟨cls, found, logged⟩

theorem leads_output {name source : String} {frequency : UpdateFrequency} {units : Option String}
    {cls : NameClass} (found : m.lookup? source = some cls) (isVariable : cls.isVariable = true) :
    OnResults (Leads m locals) (output name source frequency units) := by
  refine onResults_one fun ds all => ?_
  obtain ⟨n, rfl, rfl⟩ := allOk_output_iff.1 all
  exact List.forall_mem_singleton.2 ⟨cls, found, isVariable⟩

theorem leads_manager {name program : String} {point : CallingPoint}
    (found : m.lookup? program = some .program) :
    OnResults (Leads m locals) (manager name point program) := by
  refine onResults_one fun ds all => ?_
  obtain ⟨n, rfl, rfl⟩ := allOk_manager_iff.1 all
  exact List.forall_mem_singleton.2 (List.forall_mem_singleton.2 found)

theorem leads_program {d : Except Erl.Fault Declaration} {name : String}
    {body : Except Erl.Fault Code} (program : IsProgram (one d) name body)
    (closed : ∀ c, body = .ok c → m.ClosedBody locals c) :
    OnResults (Leads m locals) (one d) := by
  refine onResults_one fun ds all => ?_
  obtain ⟨n, c, -, hc, rfl⟩ := program ds all
  exact List.forall_mem_singleton.2 (closed c hc)

theorem leads_subroutine {name : String} {body : Except Erl.Fault Code}
    (closed : ∀ c, body = .ok c → m.ClosedBody locals c) :
    OnResults (Leads m locals) (subroutine name body) := by
  refine onResults_one fun ds all => ?_
  obtain ⟨n, c, -, hc, rfl⟩ := allOk_subroutine_iff.1 all
  exact List.forall_mem_singleton.2 (closed c hc)

end Objects

/-! ## Local names and the names of objects -/

/-- A name that may not be assigned to is local nowhere, but for given names of programs. -/
def ClearOf (locals given : List String) (d : Declaration) : Prop :=
  ∀ n cls, d.binding? = some (n, cls) → cls.isWritable = false →
    ∀ l ∈ locals, n.key = Text.asciiUpper l → cls = .program ∧ n.text ∈ given

/-- Names that differ from all local names, whatever their case. -/
def Distinct (locals : List String) (name : String) : Prop :=
  ∀ l ∈ locals, Text.asciiUpper name ≠ Text.asciiUpper l

instance (locals : List String) (name : String) : Decidable (Distinct locals name) :=
  inferInstanceAs (Decidable (∀ l ∈ locals, Text.asciiUpper name ≠ Text.asciiUpper l))

/-- A name that starts unlike the local names. -/
theorem distinct_of_stem {locals : List String} {stem : String}
    (other : ∀ l ∈ locals, ¬ stem.toList.map Char.toUpper <+: l.toList.map Char.toUpper)
    (more : String) : Distinct locals (stem ++ more) := by
  intro l hl same
  have chars := congrArg String.toList same
  rw [Text.toList_asciiUpper, Text.toList_asciiUpper, String.toList_append, List.map_append] at chars
  exact other l hl ⟨_, chars⟩

/-- A name that ends unlike the local names. -/
theorem distinct_of_ending {locals : List String} {ending : String}
    (other : ∀ l ∈ locals, ¬ ending.toList.map Char.toUpper <:+ l.toList.map Char.toUpper)
    (front : String) : Distinct locals (front ++ ending) := by
  intro l hl same
  have chars := congrArg String.toList same
  rw [Text.toList_asciiUpper, Text.toList_asciiUpper, String.toList_append, List.map_append] at chars
  exact other l hl ⟨_, chars⟩

section ClearOf

variable {locals given : List String}

/-- Without local names there is nothing to be clear of. -/
theorem clear_of_no_locals {s : Script} : OnResults (ClearOf [] given) s := by
  intro d _ n cls _ _ l hl
  cases hl

theorem clear_of_distinct {d : Declaration} {n : Name} {cls : NameClass}
    (binding : d.binding? = some (n, cls)) (distinct : Distinct locals n.text) :
    ClearOf locals given d := by
  intro k other hk _ l hl key
  rw [binding] at hk
  cases hk
  exact absurd key (distinct l hl)

theorem clear_of_writable {d : Declaration}
    (writable : ∀ n cls, d.binding? = some (n, cls) → cls.isWritable = true) :
    ClearOf locals given d := by
  intro n cls hn readOnly
  rw [writable n cls hn] at readOnly
  cases readOnly

theorem clear_of_unnamed {d : Declaration} (unnamed : d.binding? = none) :
    ClearOf locals given d := by
  refine clear_of_writable fun n cls declares => ?_
  rw [unnamed] at declares
  cases declares

theorem clear_of_given {p : Program} (mem : p.name.text ∈ given) :
    ClearOf locals given (.program p) := by
  intro n cls hn _ l hl _
  cases hn
  exact ⟨rfl, mem⟩

theorem clear_sensor {name key output : String} (distinct : Distinct locals name) :
    OnResults (ClearOf locals given) (sensor name key output) := by
  refine onResults_one fun ds all => ?_
  obtain ⟨n, rfl, rfl⟩ := allOk_sensor_iff.1 all
  simpa using clear_of_distinct rfl distinct

theorem clear_internal {name key dataType : String} (distinct : Distinct locals name) :
    OnResults (ClearOf locals given) (internal name key dataType) := by
  refine onResults_one fun ds all => ?_
  obtain ⟨n, rfl, rfl⟩ := allOk_internal_iff.1 all
  simpa using clear_of_distinct rfl distinct

theorem clear_trend {name source : String} {timesteps : Nat} (distinct : Distinct locals name) :
    OnResults (ClearOf locals given) (trend name source timesteps) := by
  refine onResults_one fun ds all => ?_
  obtain ⟨n, k, rfl, -, rfl⟩ := allOk_trend_iff.1 all
  simpa using clear_of_distinct rfl distinct

theorem clear_subroutine {name : String} {body : Except Erl.Fault Code}
    (distinct : Distinct locals name) :
    OnResults (ClearOf locals given) (subroutine name body) := by
  refine onResults_one fun ds all => ?_
  obtain ⟨n, c, rfl, -, rfl⟩ := allOk_subroutine_iff.1 all
  simpa using clear_of_distinct rfl distinct

theorem clear_program {d : Except Erl.Fault Declaration} {name : String}
    {body : Except Erl.Fault Code} (program : IsProgram (one d) name body)
    (h : Distinct locals name ∨ name ∈ given) : OnResults (ClearOf locals given) (one d) := by
  refine onResults_one fun ds all => ?_
  obtain ⟨n, c, rfl, -, rfl⟩ := program ds all
  rw [List.forall_mem_singleton]
  rcases h with distinct | mem
  · exact clear_of_distinct rfl distinct
  · exact clear_of_given mem

theorem clear_global {name : String} : OnResults (ClearOf locals given) (global name) := by
  refine onResults_one fun ds all => ?_
  obtain ⟨n, -, rfl⟩ := allOk_global_iff.1 all
  rw [List.forall_mem_singleton]
  refine clear_of_writable fun k cls hk => ?_
  cases hk
  rfl

theorem clear_actuator {name component control : String} {kind : ComponentKind} :
    OnResults (ClearOf locals given) (actuator name component kind control) := by
  refine onResults_one fun ds all => ?_
  obtain ⟨n, x, -, -, rfl⟩ := allOk_actuator_iff.1 all
  rw [List.forall_mem_singleton]
  refine clear_of_writable fun k cls hk => ?_
  cases hk
  rfl

theorem clear_output {name source : String} {frequency : UpdateFrequency} {units : Option String} :
    OnResults (ClearOf locals given) (output name source frequency units) := by
  refine onResults_one fun ds all => ?_
  obtain ⟨n, -, rfl⟩ := allOk_output_iff.1 all
  rw [List.forall_mem_singleton]
  exact clear_of_unnamed rfl

theorem clear_manager {name program : String} {point : CallingPoint} :
    OnResults (ClearOf locals given) (manager name point program) := by
  refine onResults_one fun ds all => ?_
  obtain ⟨n, -, rfl⟩ := allOk_manager_iff.1 all
  rw [List.forall_mem_singleton]
  exact clear_of_unnamed rfl

theorem clear_request {key variableName : String} {frequency : ReportingFrequency} :
    OnResults (ClearOf locals given) (request key variableName frequency) := by
  rw [request, one, onResults_singleton]
  intro x hx
  cases hx
  exact clear_of_unnamed rfl

end ClearOf

/-- The model of a closed script is in order exactly when no given name of a program is a local
    name, and such a name is the only fault there can be. -/
theorem check_of_run {s : Script} {m : Model} (h : s.run .empty = .ok m)
    {locals given : List String} (closed : m.Closed locals)
    (clear : OnResults (ClearOf locals given) s) (programs : ∀ p ∈ given, m.Declares p .program) :
    (m.check = .ok () ↔ ∀ l ∈ locals, ∀ p ∈ given, Text.sameLetters l p = false) ∧
    ∀ fault, m.check = .error fault → ∃ l ∈ locals, ∃ p ∈ given, Text.sameLetters l p = true ∧
      ∃ place, fault = .readOnly l place .program := by
  -- what stands in the way of a local name is a given name
  have clash {l : String} (hl : l ∈ locals) {cls : NameClass} (found : m.lookup? l = some cls)
      (readOnly : cls.isWritable = false) :
      cls = .program ∧ ∃ p ∈ given, Text.sameLetters l p = true := by
    obtain ⟨d, n, hd, binding, key⟩ := exists_of_lookup? h found
    obtain ⟨program, mem⟩ := clear d hd n cls binding readOnly l hl key
    exact ⟨program, n.text, mem, Text.sameLetters_iff.2 key.symm⟩
  constructor
  · rw [closed.check_eq_ok_iff]
    constructor
    · intro writable l hl p hp
      by_contra same
      rw [Bool.not_eq_false, Text.sameLetters_iff] at same
      have found : m.lookup? l = some .program := by
        rw [lookup?, same]
        exact (programs p hp).found
      have may := writable l hl .program found
      cases may
    · intro apart l hl cls found
      by_contra readOnly
      rw [Bool.not_eq_true] at readOnly
      obtain ⟨-, p, hp, same⟩ := clash hl found readOnly
      rw [apart l hl p hp] at same
      cases same
  · intro fault failed
    obtain ⟨l, hl, place, cls, found, readOnly, rfl⟩ := closed.check_eq_error failed
    obtain ⟨rfl, p, hp, same⟩ := clash hl found readOnly
    exact ⟨l, hl, p, hp, same, place, rfl⟩

end Script

end BuildingControl.Measure
