/-
  BuildingControl.Proofs.Project.Outcome

  What building the model of a checked project can come to (`outcome_of_check`).
  A build goes through four steps: the variables, the programs, the managers
  together with the reported variables, and the check of the model.  The first
  cannot fail, the second fails for the text of a program or for a manager at two
  points, and the third fails exactly when two schedules clash.
-/
import BuildingControl.Proofs.Model.Keyword
import BuildingControl.Proofs.Project.Declared

namespace BuildingControl

open Erl Model

namespace Project

/-! ## Parts -/

/-- A table or a program entry: what it declares, when it runs, and the program it becomes. -/
structure Part where
  binding : Binding
  schedule : Option Schedule
  item : Except Erl.Fault Item

def TableEntry.part (t : TableEntry) : Part := ⟨⟨t.name, .program⟩, t.schedule, t.item⟩

def ProgramEntry.part (q : ProgramEntry) : Part := ⟨⟨q.name, q.cls⟩, q.schedule, q.item⟩

def parts (p : Project) : List Part :=
  p.tables.map TableEntry.part ++ p.programs.map ProgramEntry.part

theorem items_eq (p : Project) : p.items = p.parts.map Part.item := by
  rw [parts, List.map_append, List.map_map, List.map_map]
  rfl

theorem programBindings_eq (p : Project) : p.programBindings = p.parts.map Part.binding := by
  rw [parts, List.map_append, List.map_map, List.map_map]
  rfl

/-- The program that a part becomes. -/
structure Part.Becomes (part : Part) (x : Item) : Prop where
  name : x.program.name.text = part.binding.name
  cls : (if x.subroutine then NameClass.subroutine else .program) = part.binding.cls
  schedule : x.schedule = part.schedule

theorem TableEntry.becomes {t : TableEntry} {x : Item} (h : t.item = .ok x) :
    t.part.Becomes x := by
  obtain ⟨program, hp, rfl⟩ := map_eq_ok_iff.1 h
  simp only [TableEntry.program, bind_eq_ok_iff, Name.ofText?_eq_ok_iff] at hp
  obtain ⟨body, -, n, hn, hp⟩ := hp
  cases hp
  exact ⟨hn, rfl, rfl⟩

theorem ProgramEntry.becomes {q : ProgramEntry} (sound : q.Sound) {x : Item}
    (h : q.item = .ok x) : q.part.Becomes x := by
  obtain ⟨program, hp, rfl⟩ := map_eq_ok_iff.1 h
  simp only [ProgramEntry.program, bind_eq_ok_iff, Name.ofText?_eq_ok_iff] at hp
  obtain ⟨_, -, n, hn, body, -, hp⟩ := hp
  cases hp
  refine ⟨hn, rfl, ?_⟩
  show (if q.subroutine = true then none else q.schedule) = q.schedule
  split
  · next subroutine => exact (sound subroutine).symm
  · rfl

theorem Sound.becomes {p : Project} (h : p.Sound) :
    ∀ part ∈ p.parts, ∀ x, part.item = .ok x → part.Becomes x := by
  intro part mem x hx
  rcases List.mem_append.1 mem with mem | mem
  · obtain ⟨t, -, rfl⟩ := List.mem_map.1 mem
    exact t.becomes hx
  · obtain ⟨q, hq, rfl⟩ := List.mem_map.1 mem
    exact ProgramEntry.becomes (h.programs q hq) hx

/-- The text of a sound part is all that can be wrong with it. -/
theorem Sound.textual {p : Project} (h : p.Sound) :
    ∀ f, .error f ∈ p.items → f.isTextual = true := by
  intro f mem
  rcases List.mem_append.1 mem with mem | mem
  · obtain ⟨t, ht, failed⟩ := List.mem_map.1 mem
    obtain ⟨rows, finite⟩ := h.tables t ht
    have text : Textual t.program :=
      (TableText.textual_build rows finite rfl).bind fun _ _ => (textual_name _).map _
    exact text.map _ f failed
  · obtain ⟨q, hq, failed⟩ := List.mem_map.1 mem
    have line (l : LineEntry) : Textual l.statement := by
      cases l with
      | set target value =>
        exact (textual_name target).bind fun _ _ => (textual_expression value).map _
      | ifThen condition => exact (textual_expression condition).map _
      | elseIf condition => exact (textual_expression condition).map _
      | otherwise => exact onFault_ok _
      | endIf => exact onFault_ok _
      | run subroutine => exact (textual_name subroutine).map _
      | leave => exact onFault_ok _
    have text : Textual q.program :=
      (OnFault.eachOk fun l _ => line l).bind fun _ _ =>
        (textual_name _).bind fun _ _ => (textual_code _).map _
    exact text.map _ f failed

/-! ## Programs of a sound project -/

theorem Binding.Into.slot? {b : Binding} {d : Declaration} (h : b.Into d) :
    d.slot? = some (.name (Text.asciiUpper b.name)) := by
  obtain ⟨n, declares, text⟩ := h.declares
  rw [Declaration.slot?_of_binding? declares, Name.key, text]

theorem Part.Becomes.into {part : Part} {x : Item} (h : part.Becomes x) :
    part.binding.Into x.declaration := by
  obtain ⟨valid, n, declares, text⟩ := x.into
  exact ⟨valid, n, by rw [declares, h.cls], text.trans h.name⟩

theorem Sound.key_of_mem_parts {p : Project} (h : p.Sound) {part : Part} (mem : part ∈ p.parts)
    {x : Item} (hx : part.item = .ok x) :
    x.program.name.key = Text.asciiUpper part.binding.name := by
  rw [Name.key, (h.becomes part mem x hx).name]

/-- No two programs share a name. -/
theorem Sound.apart_items {p : Project} (h : p.Sound) : p.items.Pairwise fun a b =>
    ∀ x y, a = .ok x → b = .ok y → x.program.name.key ≠ y.program.name.key := by
  have apart := h.apart
  rw [bindings_eq, programBindings_eq, List.map_append, List.nodup_append, List.map_map] at apart
  rw [items_eq, List.pairwise_map]
  refine (List.pairwise_map.1 apart.2.1).imp_of_mem fun ha hb ne x y hx hy same => ne ?_
  rw [h.key_of_mem_parts ha hx, h.key_of_mem_parts hb hy] at same
  exact same

/-- The names of the programs are free once the variables are declared. -/
theorem Sound.fresh {p : Project} (h : p.Sound) {m : Model}
    (taken : ∀ key, m.taken (.name key) = true →
      key ∈ p.variableBindings.map fun b => Text.asciiUpper b.name) : Fresh m p.items := by
  refine ⟨fun x mem => ?_, h.apart_items⟩
  have apart := h.apart
  rw [bindings_eq, programBindings_eq, List.map_append, List.nodup_append, List.map_map] at apart
  rw [items_eq] at mem
  obtain ⟨part, hpart, hx⟩ := List.mem_map.1 mem
  rw [h.key_of_mem_parts hpart hx, ← Bool.not_eq_true]
  intro old
  exact apart.2.2 _ (taken _ old) _ (List.mem_map_of_mem hpart) rfl

/-- Programs that were read, against the parts they were read from. -/
theorem Sound.forall₂_becomes {p : Project} (h : p.Sound) {xs : List Item}
    (read : AllOk p.items xs) : List.Forall₂ Part.Becomes p.parts xs := by
  have becomes := h.becomes
  rw [items_eq] at read
  generalize p.parts = parts at becomes read
  induction parts generalizing xs with
  | nil =>
    rw [List.map_nil, allOk_nil_iff] at read
    rw [read]
    exact .nil
  | cons part parts ih =>
    cases xs with
    | nil => cases read
    | cons x xs =>
      obtain ⟨first, rest⟩ := List.cons.inj read
      obtain ⟨now, later⟩ := List.forall_mem_cons.1 becomes
      exact .cons (now x first) (ih later rest)

/-- The name of a part and its schedule, if it has one. -/
def Part.scheduled? (part : Part) : Option (String × Schedule) :=
  part.schedule.map fun s => (part.binding.name, s)

/-- The programs with a schedule, by name. -/
def scheduled (p : Project) : List (String × Schedule) :=
  p.parts.filterMap Part.scheduled?

theorem schedules_eq (p : Project) : p.schedules = p.scheduled.map Prod.snd := by
  have own : (fun part : Part => part.scheduled?.map Prod.snd) = Part.schedule := by
    funext part
    unfold Part.scheduled?
    cases part.schedule <;> rfl
  rw [scheduled, List.map_filterMap, own, parts, List.filterMap_append, List.filterMap_map,
    List.filterMap_map]
  rfl

/-- The programs of a project are scheduled under their names. -/
theorem Sound.scheduled_eq {p : Project} (h : p.Sound) {xs : List Item}
    (read : AllOk p.items xs) :
    (xs.filterMap Item.scheduled?).map (fun e => (e.1.text, e.2)) = p.scheduled := by
  have becomes := h.forall₂_becomes read
  unfold scheduled
  clear read
  generalize p.parts = parts at becomes
  induction becomes with
  | nil => rfl
  | @cons part x parts xs first _ ih =>
    rw [List.filterMap_cons, List.filterMap_cons, Item.scheduled?, Part.scheduled?, first.schedule]
    cases part.schedule with
    | none => exact ih
    | some s => exact congrArg₂ List.cons (congrArg (·, s) first.name) ih

theorem Sound.schedules_of_items {p : Project} (h : p.Sound) {xs : List Item}
    (read : AllOk p.items xs) : (xs.filterMap Item.scheduled?).map Prod.snd = p.schedules := by
  rw [schedules_eq, ← h.scheduled_eq read, List.map_map]
  rfl

/-! ## Managers and reports -/

/-- The slots of objects that take one each. -/
theorem filterMap_slot? {α : Type} {slot : α → Slot} {xs : List α} {ds : List Declaration}
    (h : List.Forall₂ (fun x d => d.slot? = some (slot x)) xs ds) :
    ds.filterMap Declaration.slot? = xs.map slot := by
  induction h with
  | nil => rfl
  | cons first _ ih => rw [List.filterMap_cons_some first, ih, List.map_cons]

/-- A reported variable as an object. -/
structure OutputEntry.Into (o : OutputEntry) (d : Declaration) : Prop where
  valid : d.Valid
  slot : d.slot? = some (.output (Text.upper o.name))

theorem Sound.exists_outputs {p : Project} (h : p.Sound) :
    ∃ os, AllOk (p.outputs.map OutputEntry.declaration) os ∧
      List.Forall₂ OutputEntry.Into p.outputs os := by
  have each : ∀ o ∈ p.outputs, ∃ d, o.declaration = .ok d ∧ o.Into d := by
    intro o ho
    obtain ⟨source, name, units⟩ := h.outputs o ho
    obtain ⟨n, hn, -⟩ := exists_name source
    refine ⟨.output ⟨o.name, n, o.data, o.frequency, o.units⟩, ?_, ⟨?_, nofun⟩, rfl⟩
    · rw [OutputEntry.declaration, hn]
      rfl
    · simp [Declaration.fields, name, units]
  obtain ⟨os, all, into⟩ := exists_allOk_map id each
  rw [List.map_id] at into
  exact ⟨os, all, into⟩

/-- The usual name of a calling manager fits its field, and so does one that was checked. -/
theorem Schedule.Sound.managerName {s : Schedule} (h : s.Sound) :
    fieldReason? s.managerName = none := by
  unfold Schedule.managerName
  cases hm : s.manager with
  | none =>
    have behind : ∀ c ∈ " Programs".toList, isFieldChar c = true :=
      List.all_eq_true.1 (by decide)
    show fieldReason? (word s.callingPoint ++ " Programs") = none
    rw [fieldReason?_eq_none_iff, String.toList_append]
    intro c hc
    exact (List.mem_append.1 hc).elim ((isCell_callingPoint s.callingPoint).field c) (behind c)
  | some m => exact h m hm

/-- Managers and reported variables are valid objects. -/
theorem Managed.valid_objects {p : Project} (h : p.Sound) {done : List (Name × Schedule)}
    {cs : List CallingManager} {os : List Declaration} (managed : Managed done cs)
    (schedules : done.map Prod.snd = p.schedules)
    (into : List.Forall₂ OutputEntry.Into p.outputs os) :
    ∀ d ∈ cs.map Declaration.manager ++ os, d.Valid := by
  intro d hd
  rcases List.mem_append.1 hd with hd | hd
  · obtain ⟨c, hc, rfl⟩ := List.mem_map.1 hd
    obtain ⟨e, he, name, -⟩ := managed.named c hc
    have mem : e.2 ∈ p.schedules := schedules ▸ List.mem_map_of_mem he
    refine ⟨?_, nofun⟩
    simp [Declaration.fields, ← name, (h.schedules e.2 mem).managerName]
  · obtain ⟨o, -, intoO⟩ := exists_of_mem_forall₂ into.flip hd
    exact intoO.valid

/-! ## Outcomes -/

/-- The model of a project, put together from its variables, its programs, their managers and its
    reported variables. -/
structure Assembled (p : Project) (ds : List Declaration) (xs : List Item)
    (cs : List CallingManager) (os : List Declaration) (m : Model) : Prop where
  entries : AllOk p.variableSteps ds
  into : List.Forall₂ Binding.Into p.variableBindings ds
  programs : AllOk p.items xs
  managed : Managed (xs.filterMap Item.scheduled?) cs
  outputs : AllOk (p.outputs.map OutputEntry.declaration) os
  declared : (Model.empty.withReporting p.reporting).declareAll
    (ds ++ xs.map Item.declaration ++ (cs.map .manager ++ os)) = (m, .ok ())

/-- What building the model of a checked project without measures can come to. -/
inductive Outcome (p : Project) : Except Fault Model → Prop
  | text {f : Erl.Fault} (failed : .error f ∈ p.items) : Outcome p (.error (.program f))
  | point {d : Defect} (apart : ¬ OnePoint p.schedules) : Outcome p (.error (.file d))
  | clash {name : String} {xs : List Item} (read : AllOk p.items xs)
    (one : OnePoint p.schedules) (clash : Clash p.schedules) :
    Outcome p (.error (.program (.duplicateName name)))
  | built {ds : List Declaration} {xs : List Item} {cs : List CallingManager}
    {os : List Declaration} {m : Model} (assembled : p.Assembled ds xs cs os m)
    (one : OnePoint p.schedules) (clear : ¬ Clash p.schedules) :
    Outcome p ((m.check.mapError .program).map fun _ => m)

theorem mapError_bind {ε δ α β : Type} (x : Except ε α) (f : α → Except ε β) (g : ε → δ) :
    (x >>= f).mapError g = x.mapError g >>= fun a => (f a).mapError g := by
  cases x <;> rfl

/-- Building without measures in four steps: variables, programs, then managers and reported
    variables together, and the check of the model. -/
theorem build_eq {p : Project} (checked : p.check = .ok ()) (alone : p.measures = [])
    {ds os : List Declaration} (entries : AllOk p.variableSteps ds)
    (outputs : AllOk (p.outputs.map OutputEntry.declaration) os) :
    p.build = ((Model.empty.withReporting p.reporting).declareAll ds).model?.mapError .program >>=
      fun m => Progress.each Progress.addItem ⟨m, []⟩ p.items >>= fun g =>
        (g.model.declareAll (g.managers.map .manager ++ os)).model?.mapError .program >>= fun m =>
          (m.check.mapError Fault.program).map fun _ => m := by
  have measures (m : Model) : applyMeasures m p.measures = .ok m := by
    rw [alone]
    rfl
  simp only [build, checked, declaredModel_of_allOk entries, measures, each_items,
    declareEntries_of_allOk outputs, declareAll_append, mapError_bind, bind_assoc]
  rfl

/-! ## The steps of a build -/

section Steps

variable {bs : List Binding} {ds : List Declaration}

theorem valid_of_into (into : List.Forall₂ Binding.Into bs ds) : ∀ d ∈ ds, d.Valid := by
  intro d hd
  obtain ⟨b, -, h⟩ := exists_of_mem_forall₂ into.flip hd
  exact h.valid

/-- Objects that declare names take the slots of these names and no other. -/
theorem taken_of_into (into : List.Forall₂ Binding.Into bs ds) {m : Model} {s : Slot} :
    (ds.foldl push m).taken s = true ↔
      (∃ b ∈ bs, s = .name (Text.asciiUpper b.name)) ∨ m.taken s = true := by
  rw [taken_foldl_push, Bool.or_eq_true, decide_eq_true_iff]
  refine or_congr_left ⟨?_, ?_⟩
  · rintro ⟨d, hd, hs⟩
    obtain ⟨b, hb, h⟩ := exists_of_mem_forall₂ into.flip hd
    exact ⟨b, hb, Option.some.inj (hs.symm.trans h.slot?)⟩
  · rintro ⟨b, hb, rfl⟩
    obtain ⟨d, hd, h⟩ := exists_of_mem_forall₂ into hb
    exact ⟨d, hd, h.slot?⟩

theorem not_taken_empty (r : Reporting) (s : Slot) :
    (Model.empty.withReporting r).taken s = false := by
  cases s <;> rfl

/-- The variables of a sound project are declared. -/
theorem Sound.declareAll_variables {p : Project} (h : p.Sound)
    (into : List.Forall₂ Binding.Into p.variableBindings ds) :
    (Model.empty.withReporting p.reporting).declareAll ds =
      (ds.foldl push (Model.empty.withReporting p.reporting), .ok ()) := by
  have apart := h.apart
  rw [bindings_eq, List.map_append, List.nodup_append] at apart
  refine declareAll_eq_ok_iff.2 ⟨valid_of_into into, ?_, ?_, rfl⟩
  · rw [filterMap_slot? (into.imp fun _ _ h => h.slot?)]
    have slots := apart.1.map (f := Slot.name) fun _ _ => Slot.name.inj
    rwa [List.map_map] at slots
  · exact fun d _ s _ => not_taken_empty p.reporting s

/-- Managers and reported variables get into a model without managers and reported variables
    exactly when no schedules clash. -/
theorem Sound.declareAll_managers {p : Project} (h : p.Sound) {done : List (Name × Schedule)}
    {cs : List CallingManager} {os : List Declaration} (managed : Managed done cs)
    (schedules : done.map Prod.snd = p.schedules)
    (into : List.Forall₂ OutputEntry.Into p.outputs os) {m : Model}
    (names : ∀ s, m.taken s = true → ∃ key, s = .name key) :
    (∃ n, m.declareAll (cs.map .manager ++ os) = (n, .ok ())) ↔ ¬ Clash p.schedules := by
  have slots : (cs.map Declaration.manager ++ os).filterMap Declaration.slot? =
      cs.map (fun c => .manager (Text.upper c.name)) ++
        p.outputs.map fun o => .output (Text.upper o.name) := by
    rw [List.filterMap_append, filterMap_slot? (into.imp fun _ _ h => h.slot), List.filterMap_map]
    show cs.filterMap (some ∘ fun c => Slot.manager (Text.upper c.name)) ++ _ = _
    rw [List.filterMap_eq_map]
  have apart : ((cs.map Declaration.manager ++ os).filterMap Declaration.slot?).Nodup ↔
      ¬ Clash p.schedules := by
    have managers : (cs.map fun c => Slot.manager (Text.upper c.name)).Nodup ↔
        (cs.map fun c => Text.upper c.name).Nodup := by
      rw [← List.nodup_map_iff (f := Slot.manager) fun _ _ => Slot.manager.inj, List.map_map]
      rfl
    have reported : (p.outputs.map fun o => Slot.output (Text.upper o.name)).Nodup := by
      have all := h.reported.map (f := Slot.output) fun _ _ => Slot.output.inj
      rwa [List.map_map] at all
    rw [slots, List.nodup_append, managers, managed.nodup_iff_not_clash, schedules]
    refine ⟨And.left, fun clear => ⟨clear, reported, ?_⟩⟩
    intro a ha b hb
    obtain ⟨c, -, rfl⟩ := List.mem_map.1 ha
    obtain ⟨o, -, rfl⟩ := List.mem_map.1 hb
    exact nofun
  simp only [declareAll_eq_ok_iff, apart]
  refine ⟨fun ⟨_, all⟩ => all.2.1, fun clear => ⟨_, ?_, clear, ?_, rfl⟩⟩
  · exact Managed.valid_objects h managed schedules into
  · -- neither a manager nor a reported variable takes a name
    intro d hd s hs
    rw [← Bool.not_eq_true]
    intro old
    obtain ⟨key, rfl⟩ := names s old
    rcases List.mem_append.1 hd with hd | hd
    · obtain ⟨c, -, rfl⟩ := List.mem_map.1 hd
      cases hs
    · obtain ⟨o, -, intoO⟩ := exists_of_mem_forall₂ into.flip hd
      rw [intoO.slot] at hs
      cases hs

/-- Every name of a project whose programs were read is declared. -/
theorem Sound.into_bindings {p : Project} (h : p.Sound) {xs : List Item}
    (into : List.Forall₂ Binding.Into p.variableBindings ds) (read : AllOk p.items xs) :
    List.Forall₂ Binding.Into p.bindings (ds ++ xs.map Item.declaration) := by
  rw [bindings_eq, programBindings_eq]
  refine List.rel_append into ?_
  rw [List.forall₂_map_left_iff, List.forall₂_map_right_iff]
  exact (h.forall₂_becomes read).imp fun _ _ h => h.into

theorem eq_ok_of_model? {r : Attempt Erl.Fault Unit} {m : Model} (h : r.model? = .ok m) :
    r = (m, .ok ()) := by
  rcases r with ⟨left, _ | u⟩
  · cases h
  · cases h
    rfl

/-- The names of the programs are free in the model with the variables. -/
theorem Sound.fresh_items {p : Project} (h : p.Sound)
    (into : List.Forall₂ Binding.Into p.variableBindings ds) :
    Fresh (ds.foldl push (Model.empty.withReporting p.reporting)) p.items := by
  refine h.fresh fun key old => ?_
  rcases (taken_of_into into).1 old with ⟨b, hb, same⟩ | old
  · exact List.mem_map.2 ⟨b, hb, (Slot.name.inj same).symm⟩
  · rw [not_taken_empty] at old
    cases old

/-- The programs of a sound project that do not all come in: one of them is at fault itself, or two
    schedules name one manager and two calling points. -/
theorem Sound.each_items_eq_error {p : Project} (h : p.Sound)
    (into : List.Forall₂ Binding.Into p.variableBindings ds) {fault : Fault}
    (run : Progress.each Progress.addItem
      ⟨ds.foldl push (Model.empty.withReporting p.reporting), []⟩ p.items = .error fault) :
    (∃ f, .error f ∈ p.items ∧ fault = .program f) ∨
      (∃ d, fault = .file d) ∧ ¬ OnePoint p.schedules := by
  rcases Progress.each_addItem_eq_error .nil (h.fresh_items into) run with text | ⟨file, apart⟩
  · exact .inl text
  · refine .inr ⟨file, apart p.schedules (List.nil_subset _) fun x s hx hs => ?_⟩
    rw [items_eq] at hx
    obtain ⟨part, hpart, read⟩ := List.mem_map.1 hx
    rw [schedules_eq]
    refine List.mem_map.2 ⟨(part.binding.name, s), List.mem_filterMap.2 ⟨part, hpart, ?_⟩, rfl⟩
    rw [Part.scheduled?, ← (h.becomes part hpart x read).schedule, hs]
    rfl

/-- The programs of a sound project that come in: all of them were read, they are in the managers
    of their schedules, and only names are taken. -/
theorem Sound.each_items_eq_ok {p : Project} (h : p.Sound)
    (into : List.Forall₂ Binding.Into p.variableBindings ds) {g : Progress}
    (run : Progress.each Progress.addItem
      ⟨ds.foldl push (Model.empty.withReporting p.reporting), []⟩ p.items = .ok g) :
    ∃ xs, AllOk p.items xs ∧ Managed (xs.filterMap Item.scheduled?) g.managers ∧
      (Model.empty.withReporting p.reporting).declareAll (ds ++ xs.map Item.declaration) =
        (g.model, .ok ()) ∧
      ∀ s, g.model.taken s = true → ∃ key, s = .name key := by
  obtain ⟨xs, read, programs, managed⟩ := Progress.each_addItem_eq_ok .nil run
  rw [List.nil_append] at managed
  have all : (Model.empty.withReporting p.reporting).declareAll (ds ++ xs.map Item.declaration) =
      (g.model, .ok ()) := by
    have both := declareAll_append (Model.empty.withReporting p.reporting) ds
      (xs.map Item.declaration)
    rw [h.declareAll_variables into] at both
    exact eq_ok_of_model? (both.trans (congrArg Attempt.model? programs))
  refine ⟨xs, read, managed, all, fun s old => ?_⟩
  obtain ⟨-, -, -, pushed⟩ := declareAll_eq_ok_iff.1 all
  rw [← pushed] at old
  rcases (taken_of_into (h.into_bindings into read)).1 old with ⟨b, -, same⟩ | old
  · exact ⟨_, same⟩
  · rw [not_taken_empty] at old
    cases old

end Steps

/-- Each way through the steps of a build. -/
theorem outcome_of_check {p : Project} (checked : p.check = .ok ()) (alone : p.measures = []) :
    p.Outcome p.build := by
  have sound := sound_of_check checked
  obtain ⟨ds, entries, into⟩ := sound.exists_variables
  obtain ⟨os, outputs, intoOutputs⟩ := sound.exists_outputs
  rw [build_eq checked alone entries outputs, sound.declareAll_variables into]
  show p.Outcome (Progress.each Progress.addItem ⟨_, []⟩ p.items >>= _)
  cases run : Progress.each Progress.addItem ⟨_, []⟩ p.items with
  | error fault =>
    rcases sound.each_items_eq_error into run with ⟨f, failed, rfl⟩ | ⟨⟨d, rfl⟩, apart⟩
    · exact .text failed
    · exact .point apart
  | ok g =>
    obtain ⟨xs, read, managed, all, names⟩ := sound.each_items_eq_ok into run
    have schedules := sound.schedules_of_items read
    have one : OnePoint p.schedules := schedules ▸ managed.onePoint
    have managers := sound.declareAll_managers managed schedules intoOutputs names
    show p.Outcome
      ((g.model.declareAll (g.managers.map .manager ++ os)).model?.mapError .program >>= _)
    by_cases clash : Clash p.schedules
    · have valid := Managed.valid_objects sound managed schedules intoOutputs
      cases failed : (g.model.declareAll (g.managers.map .manager ++ os)).model? with
      | error fault =>
        obtain ⟨name, rfl⟩ := duplicateName_of_declareAll valid fault failed
        exact .clash read one clash
      | ok m => exact absurd clash (managers.1 ⟨m, eq_ok_of_model? failed⟩)
    · obtain ⟨m, last⟩ := managers.2 clash
      rw [last]
      refine .built ⟨entries, into, read, managed, outputs, ?_⟩ one clash
      have both := declareAll_append (Model.empty.withReporting p.reporting)
        (ds ++ xs.map Item.declaration) (g.managers.map .manager ++ os)
      rw [all] at both
      exact eq_ok_of_model? (both.trans (congrArg Attempt.model? last))

end Project

end BuildingControl
