/-
  BuildingControl.Proofs.Measure.Sizing

  What the program for package sizes does.  Every loop puts its calculated flow
  into one global, runs the subroutine that picks a package, and takes what the
  other global then holds.  A flow that a package covers gets the smallest such
  package.  A flow that none covers leaves the global alone, so that the loop gets
  what the loops before it left there (`runProgram_sizing`); the calculated flow
  itself, which the module text promises, it gets only by coincidence.
-/
import BuildingControl.Proofs.Measure.Package
import BuildingControl.Proofs.Measure.Script
import BuildingControl.Proofs.Model.Execution
import BuildingControl.Proofs.Number.Written
import Mathlib.Data.List.Nodup

namespace BuildingControl.Measure.Sizing

open Erl Model

/-! ## The smallest package -/

/-- A package covers a flow, and none that covers it is smaller. -/
structure IsSmallest (sizes : List Float) (flow package : Float) : Prop where
  mem : package ∈ sizes
  covers : flow ≤ package
  least : ∀ p ∈ sizes, flow ≤ p → package ≤ p

/-- What the module text promises a loop: the smallest package that covers its flow, or the flow
    itself when it lies above every package. -/
def Promised (sizes : List Float) (flow result : Float) : Prop :=
  IsSmallest sizes flow result ∨ (∀ p ∈ sizes, p < flow) ∧ result = flow

/-- In ascending order the first package that covers a flow is the smallest. -/
theorem isSmallest_of_find? {sizes : List Float} (sorted : sizes.Pairwise (· ≤ ·))
    (finite : ∀ p ∈ sizes, p.isFinite = true) {flow package : Float}
    (h : sizes.find? (flow ≤ ·) = some package) : IsSmallest sizes flow package := by
  have covers : flow ≤ package := by simpa using List.find?_some h
  refine ⟨List.mem_of_find?_eq_some h, covers, ?_⟩
  induction sizes with
  | nil => simp
  | cons p sizes ih =>
    obtain ⟨first, sorted⟩ := List.pairwise_cons.1 sorted
    obtain ⟨pFinite, finite⟩ := List.forall_mem_cons.1 finite
    by_cases hp : flow ≤ p
    · rw [List.find?_cons_of_pos (by simpa using hp)] at h
      cases h
      exact List.forall_mem_cons.2
        ⟨fun _ => Number.le_refl_of_isFinite pFinite, fun q hq _ => first q hq⟩
    · rw [List.find?_cons_of_neg (by simpa using hp)] at h
      exact List.forall_mem_cons.2 ⟨fun hc => absurd hc hp, ih sorted finite h⟩

/-! ## The objects of a measure that builds -/

/-- The global that holds the flow of the chosen package. -/
def discreteName : Name := ⟨discreteFlow, by decide⟩

/-- The global that holds the calculated flow. -/
def mainName : Name := ⟨calculatedFlow, by decide⟩

/-- The subroutine that picks a package. -/
def selectName : Name := ⟨select, by decide⟩

/-- An air loop with its two variables. -/
structure Loop where
  airLoop : String
  calculated : Name
  actuator : Actuator
  calculated_text : calculated.text = calculatedName airLoop
  actuator_text : actuator.name.text = actuatorName airLoop

namespace Loop

/-- The objects of a loop. -/
def declarations (l : Loop) : List Declaration :=
  [.internal ⟨l.calculated, l.airLoop, "Intermediate Air System Main Supply Volume Flow Rate"⟩,
   .actuator l.actuator]

/-- The lines of a loop. -/
def lines (l : Loop) : List Statement :=
  [.assign mainName l.calculated.expression, .run selectName,
   .assign l.actuator.name discreteName.expression]

/-- The keys that a loop takes. -/
def keys (l : Loop) : List String :=
  [l.calculated.key, l.actuator.name.key]

end Loop

theorem exists_loop {airLoop : String} {ds : List Declaration} (h : AllOk (loopScript airLoop) ds) :
    ∃ l : Loop, l.airLoop = airLoop ∧ l.declarations = ds := by
  obtain ⟨internals, actuators, hi, ha, rfl⟩ := allOk_append_iff.1 h
  obtain ⟨c, hc, rfl⟩ := Script.allOk_internal_iff.1 hi
  obtain ⟨n, actuator, hn, hactuator, rfl⟩ := Script.allOk_actuator_iff.1 ha
  exact ⟨⟨airLoop, c, actuator, hc, by rw [Script.name_of_ofComponent hactuator, hn]⟩, rfl, rfl⟩

theorem exists_loops {airLoops : List String} {ds : List Declaration}
    (h : AllOk (airLoops.flatMap loopScript) ds) :
    ∃ loops : List Loop, loops.map Loop.airLoop = airLoops ∧
      loops.flatMap Loop.declarations = ds := by
  obtain ⟨parts, hparts, rfl⟩ := allOk_flatMap_iff.1 h
  clear h
  induction hparts with
  | nil => exact ⟨[], rfl, rfl⟩
  | cons first _ ih =>
    obtain ⟨l, rfl, rfl⟩ := exists_loop first
    obtain ⟨loops, rfl, hrest⟩ := ih
    exact ⟨l :: loops, rfl, by rw [List.flatMap_cons, hrest, List.flatten_cons]⟩

/-- The lines of a loop are no faults once its variables have names. -/
theorem loopBody_eq (l : Loop) : loopBody l.airLoop = l.lines.map .ok := by
  have text : Expression.ofText? (calculatedName l.airLoop) = .ok l.calculated.expression := by
    rw [← l.calculated_text, Name.ofText?_expression]
  have main : Name.ofText? calculatedFlow = .ok mainName := Name.ofText?_eq_ok_iff.2 rfl
  have pick : Name.ofText? select = .ok selectName := Name.ofText?_eq_ok_iff.2 rfl
  have target : Name.ofText? (actuatorName l.airLoop) = .ok l.actuator.name :=
    Name.ofText?_eq_ok_iff.2 l.actuator_text
  have value : Expression.ofText? discreteFlow = .ok discreteName.expression :=
    discreteName.ofText?_expression
  simp only [loopBody, Draft.set, Draft.run, text, main, pick, target, value]
  rfl

/-- The objects of a measure whose sizes have been read. -/
structure Objects (s : Sizing) (sizes : List Float) where
  loops : List Loop
  table : RuleTable
  pick : Model.Program
  program : Model.Program
  loops_eq : loops.map Loop.airLoop = s.airLoops
  table_eq : (selection sizes).table = .ok table
  pick_name : pick.name = selectName
  pick_lines : pick.body.statements = table.statements
  program_name : program.name.text = s.program
  program_lines : program.body.statements = loops.flatMap Loop.lines

/-- The objects in the order in which they are added. -/
def Objects.declarations {s : Sizing} {sizes : List Float} (o : Objects s sizes) :
    List Declaration :=
  [.global discreteName, .global mainName, .subroutine o.pick] ++
    (o.loops.flatMap Loop.declarations ++
      [.program o.program, .manager ⟨s.manager, .endOfSystemSizing, [o.program.name]⟩])

/-- A measure builds into its objects. -/
theorem exists_objects {s : Sizing} {sizes : List Float} (hs : s.sizes = .ok sizes)
    {a next : Numbering} {m : Model}
    (hb : (Measure.discretePackageSizing s).build a = .ok (m, next)) :
    ∃ o : Objects s sizes, Model.empty.declareAll o.declarations = (m, .ok ()) := by
  obtain ⟨ds, hds, hall⟩ := declarations_of_build hb
  change AllOk s.script ds at hds
  unfold script at hds
  split at hds
  · cases ds <;> cases hds
  simp only [hs] at hds
  obtain ⟨_, managers, h4, hmanager, rfl⟩ := allOk_append_iff.1 hds
  obtain ⟨_, programs, h3, hprogram, rfl⟩ := allOk_append_iff.1 h4
  obtain ⟨_, _, h2, hloops, rfl⟩ := allOk_append_iff.1 h3
  obtain ⟨_, subroutines, h1, hpick, rfl⟩ := allOk_append_iff.1 h2
  obtain ⟨globals, globals', hdiscrete, hmain, rfl⟩ := allOk_append_iff.1 h1
  obtain ⟨d, hd, rfl⟩ := Script.allOk_global_iff.1 hdiscrete
  obtain ⟨c, hc, rfl⟩ := Script.allOk_global_iff.1 hmain
  obtain ⟨pick, code, hpickName, hcode, rfl⟩ := Script.allOk_subroutine_iff.1 hpick
  obtain ⟨program, body, hname, hbody, rfl⟩ := Script.allOk_program_iff.1 hprogram
  obtain ⟨listed, hlisted, rfl⟩ := Script.allOk_manager_iff.1 hmanager
  obtain ⟨loops, hairLoops, rfl⟩ := exists_loops hloops
  obtain ⟨table, htable, hlines⟩ := TableText.statements_of_build hcode
  have bodyLines : body.statements = loops.flatMap Loop.lines := by
    have drafted := Draft.statements_of_build hbody
    rw [← hairLoops, List.flatMap_map, funext loopBody_eq, ← List.map_flatMap] at drafted
    exact drafted.unique rfl
  obtain rfl : d = discreteName := Name.eq_of_text hd
  obtain rfl : c = mainName := Name.eq_of_text hc
  obtain rfl : listed = program := Name.eq_of_text (hlisted.trans hname.symm)
  refine ⟨⟨loops, table, ⟨pick, code⟩, ⟨listed, body⟩, hairLoops, htable, Name.eq_of_text hpickName,
    hlines, hname, bodyLines⟩, ?_⟩
  simpa [Objects.declarations] using hall

/-! ## What the model of a built measure holds -/

theorem Objects.bodies {s : Sizing} {sizes : List Float} {o : Objects s sizes} {m : Model}
    (h : Model.empty.declareAll o.declarations = (m, .ok ())) :
    m.programs = [o.program] ∧ m.subroutines = [o.pick] := by
  obtain ⟨-, -, -, rfl⟩ := declareAll_eq_ok_iff.1 h
  have others (k : ObjectKind) (hk : k ≠ .internal ∧ k ≠ .actuator) :
      (o.loops.flatMap Loop.declarations).filter (fun d => d.kind = k) = [] := by
    rw [List.filter_eq_nil_iff]
    intro d hd
    obtain ⟨l, -, hl⟩ := List.mem_flatMap.1 hd
    simp only [Loop.declarations, List.mem_cons, List.not_mem_nil, or_false] at hl
    rcases hl with rfl | rfl
    · exact hk.1.symm ∘ of_decide_eq_true
    · exact hk.2.symm ∘ of_decide_eq_true
  have programs : o.declarations.filter (fun d => d.kind = .program) = [.program o.program] := by
    rw [Objects.declarations, List.filter_append, List.filter_append, others .program (by decide)]
    rfl
  have subroutines :
      o.declarations.filter (fun d => d.kind = .subroutine) = [.subroutine o.pick] := by
    rw [Objects.declarations, List.filter_append, List.filter_append, others .subroutine (by decide)]
    rfl
  constructor
  · have listed := foldl_push_objects empty o.declarations (k := .program) (by decide)
    rw [programs] at listed
    exact List.map_injective_iff.2 (fun _ _ => Declaration.program.inj) listed
  · have listed := foldl_push_objects empty o.declarations (k := .subroutine) (by decide)
    rw [subroutines] at listed
    exact List.map_injective_iff.2 (fun _ _ => Declaration.subroutine.inj) listed

/-- The names of a built measure are pairwise different. -/
theorem Objects.nodup_keys {s : Sizing} {sizes : List Float} {o : Objects s sizes} {m : Model}
    (h : Model.empty.declareAll o.declarations = (m, .ok ())) :
    (discreteName.key :: mainName.key :: o.loops.flatMap Loop.keys).Nodup := by
  obtain ⟨-, apart, -, -⟩ := declareAll_eq_ok_iff.1 h
  have slots (loops : List Loop) : (loops.flatMap Loop.declarations).filterMap Declaration.slot? =
      (loops.flatMap Loop.keys).map Slot.name := by
    induction loops with
    | nil => rfl
    | cons l loops ih =>
      rw [List.flatMap_cons, List.filterMap_append, ih, List.flatMap_cons, List.map_append]
      rfl
  have all : o.declarations.filterMap Declaration.slot? =
      .name discreteName.key :: .name mainName.key :: .name o.pick.name.key ::
        ((o.loops.flatMap Loop.keys).map Slot.name ++
          [.name o.program.name.key, .manager (Text.upper s.manager)]) := by
    rw [← slots, Objects.declarations]
    simp [Declaration.slot?, Declaration.binding?]
  rw [all] at apart
  have part : ((discreteName.key :: mainName.key :: o.loops.flatMap Loop.keys).map Slot.name).Sublist
      (.name discreteName.key :: .name mainName.key :: .name o.pick.name.key ::
        ((o.loops.flatMap Loop.keys).map Slot.name ++
          [.name o.program.name.key, .manager (Text.upper s.manager)])) :=
    ((List.sublist_append_left _ _).cons _).cons_cons _ |>.cons_cons _
  exact List.Nodup.of_map Slot.name (apart.sublist part)

/-! ## The subroutine -/

/-- What picking a package does: the global of the chosen package gets the first package that
    covers the calculated flow, if one does; beyond that only the scratch variable changes. -/
structure Picks (sizes : List Float) (σ τ : Store Float) : Prop where
  chosen : τ discreteName.key = (sizes.find? (σ mainName.key ≤ ·)).getD (σ discreteName.key)
  others : ∀ k, k ≠ discreteName.key → k ≠ "DUMMY" → τ k = σ k

/-- The row of one package. -/
def row (size : Float) : RuleText :=
  ⟨size, discreteFlow, Number.format size⟩

section Execution

variable {e : Evaluation Float} {numbers : List Float} (usual : e.Usual numbers)

include usual in
theorem picks_rows {table : RuleTable} (subject : table.subject = mainName)
    (comparison : table.comparison = .le) (default : table.otherwise.target.key = "DUMMY")
    (σ : Store Float) {sizes : List Float} (known : ∀ p ∈ sizes, p ∈ numbers) {rows : List Rule}
    (reads : List.Forall₂ RuleText.Reads (sizes.map row) rows) :
    Picks sizes σ (e.machine.perform (table.chooseFrom (e.machine.holds · σ) rows) σ) := by
  induction sizes generalizing rows with
  | nil =>
    -- no row is left: the default assigns the scratch variable
    cases reads
    have fallback : e.machine.perform (table.chooseFrom (e.machine.holds · σ) []) σ =
        Function.update σ "DUMMY" (e.value table.otherwise.value σ) := by
      rw [← default]
      rfl
    rw [fallback]
    exact ⟨Function.update_of_ne (by decide) _ _, fun k _ hk => Function.update_of_ne hk _ _⟩
  | cons p sizes ih =>
    cases reads with
    | @cons _ r _ rows hr reads =>
    obtain ⟨bound, target, value⟩ := hr
    have bound : r.boundary.value = p := bound
    obtain ⟨hp, known⟩ := List.forall_mem_cons.1 known
    have holds : e.machine.holds (table.condition r) σ = decide (σ mainName.key ≤ p) := by
      show e.compares table.comparison (σ table.subject.key) r.boundary.value = _
      rw [subject, comparison, usual.compares, bound]
      rfl
    rw [RuleTable.chooseFrom_cons, holds]
    by_cases hc : σ mainName.key ≤ p
    · -- the package covers the flow, and its row assigns its size
      have finite : p.isFinite = true := bound ▸ r.boundary.finite
      have text : r.action.value.text = Number.format p := by
        rw [value, row, Text.trim_eq_self (Number.trimmed_format finite)]
      have assigned : e.machine.perform r.action σ = Function.update σ discreteName.key p := by
        show Function.update σ r.action.target.key (e.value r.action.value σ) = _
        rw [usual.number p hp _ text, Name.eq_of_text (k := discreteName) target]
      rw [if_pos (decide_eq_true hc), assigned]
      refine ⟨?_, fun k hk _ => Function.update_of_ne hk _ _⟩
      rw [Function.update_self, List.find?_cons_of_pos (by simpa using hc), Option.getD_some]
    · -- it does not, and the rows behind it decide
      rw [if_neg (by simpa using hc)]
      obtain ⟨chosen, others⟩ := ih known reads
      refine ⟨?_, others⟩
      rw [chosen, List.find?_cons_of_neg (by simpa using hc)]

/-! ## The loops -/

/-- What the global of the chosen package holds after loops with these flows: the package of the
    last flow that was covered. -/
def held (sizes : List Float) (initial : Float) (flows : List Float) : Float :=
  flows.foldl (fun before flow => (sizes.find? (flow ≤ ·)).getD before) initial

/-- The keys that all loops share. -/
def shared : List String :=
  [discreteName.key, mainName.key, "DUMMY"]

theorem key_of_text {n : Name} {stem ending : String} (h : n.text = stem ++ ending) :
    (Text.asciiUpper ending).toList <:+ n.key.toList := by
  rw [Name.key, h]
  simp only [Text.toList_asciiUpper, String.toList_append, List.map_append]
  exact List.suffix_append _ _

/-- No built-in word ends like the variable of a calculated flow. -/
theorem Loop.not_isBuiltin (l : Loop) : isBuiltin l.calculated.text = false := by
  have ending := key_of_text (l.calculated_text.trans rfl : _ = sanitize l.airLoop ++ _)
  by_contra h
  rw [Bool.not_eq_false, isBuiltin, List.any_eq_true] at h
  obtain ⟨b, hb, same⟩ := h
  have short : ∀ b ∈ builtinNames,
      ¬ (Text.asciiUpper "_CalcMainSupVdot").toList <:+ (Text.asciiUpper b).toList := by
    decide +kernel
  rw [Text.sameLetters_iff] at same
  rw [Name.key, ← same] at ending
  exact short b hb ending

/-- The variables of a loop are none of the shared ones. -/
theorem Loop.not_mem_shared {l : Loop} {loops : List Loop}
    (h : (discreteName.key :: mainName.key :: loops.flatMap Loop.keys).Nodup) (hl : l ∈ loops) :
    l.calculated.key ∉ shared ∧ l.actuator.name.key ∉ shared := by
  have mem (k : String) (hk : k ∈ l.keys) : k ∈ loops.flatMap Loop.keys :=
    List.mem_flatMap.2 ⟨l, hl, hk⟩
  obtain ⟨hd, hm⟩ := List.nodup_cons.1 h
  obtain ⟨hm, -⟩ := List.nodup_cons.1 hm
  have apart (k : String) (hk : k ∈ l.keys) (dummy : k ≠ "DUMMY") : k ∉ shared := by
    simp only [shared, List.mem_cons, List.not_mem_nil, or_false]
    rintro (rfl | rfl | rfl)
    · exact hd (List.mem_cons_of_mem _ (mem _ hk))
    · exact hm (mem _ hk)
    · exact dummy rfl
  -- the word is shorter than the endings of both names
  have long {k ending : String} (hk : (Text.asciiUpper ending).toList <:+ k.toList)
      (h : 5 < (Text.asciiUpper ending).toList.length) : k ≠ "DUMMY" := by
    rintro rfl
    exact absurd hk.length_le (by simpa using h)
  constructor
  · refine apart _ (by simp [keys]) ?_
    exact long (key_of_text (l.calculated_text.trans rfl : _ = sanitize l.airLoop ++ _)) (by decide)
  · refine apart _ (by simp [keys]) ?_
    exact long (key_of_text (l.actuator_text.trans rfl : _ = sanitize l.airLoop ++ _)) (by decide)

variable {sizes : List Float} {call : Name → Store Float → Option (Store Float)}
  (picks : ∀ σ, ∃ τ, call selectName σ = some τ ∧ Picks sizes σ τ)

include usual picks in
/-- One loop: its actuator gets what the global holds once its own flow has been looked at. -/
theorem run_loop {l : Loop} (apart : l.calculated.key ∉ shared ∧ l.actuator.name.key ∉ shared)
    (rest : List Statement) (σ : Store Float) :
    ∃ τ, e.machine.run call [] (l.lines ++ rest) σ = e.machine.run call [] rest τ ∧
      τ discreteName.key = held sizes (σ discreteName.key) [σ l.calculated.key] ∧
      τ l.actuator.name.key = τ discreteName.key ∧
      ∀ k, k ∉ shared → k ≠ l.actuator.name.key → τ k = σ k := by
  obtain ⟨τ, hτ, chosen, others⟩ :=
    picks (Function.update σ mainName.key (σ l.calculated.key))
  rw [Function.update_self, Function.update_of_ne (by decide)] at chosen
  have flow : e.value l.calculated.expression σ = σ l.calculated.key :=
    usual.name l.calculated _ l.not_isBuiltin rfl σ
  have package : e.value discreteName.expression τ = τ discreteName.key :=
    usual.name discreteName _ (by decide) rfl τ
  have ne : discreteName.key ≠ l.actuator.name.key := fun h => apart.2 (by simp [shared, ← h])
  refine ⟨Function.update τ l.actuator.name.key (τ discreteName.key), ?_, ?_, ?_, ?_⟩
  · show e.machine.run call [] (.run selectName :: .assign l.actuator.name _ :: rest)
      (Function.update σ mainName.key (e.value l.calculated.expression σ)) = _
    rw [flow, Machine.run, if_pos active_nil, hτ, Option.bind_some, Machine.run,
      if_pos active_nil]
    show e.machine.run call [] rest
      (Function.update τ l.actuator.name.key (e.value discreteName.expression τ)) = _
    rw [package]
  · rw [Function.update_of_ne ne, chosen]
    rfl
  · rw [Function.update_self, Function.update_of_ne ne]
  · intro k hk hne
    simp only [shared, List.mem_cons, List.not_mem_nil, or_false, not_or] at hk
    rw [Function.update_of_ne hne, others k hk.1 hk.2.2, Function.update_of_ne hk.2.1]

include usual picks in
/-- All loops: each actuator gets what the global holds after the flows up to its own. -/
theorem run_loops {loops : List Loop} (nodup : (loops.flatMap Loop.keys).Nodup)
    (apart : ∀ l ∈ loops, l.calculated.key ∉ shared ∧ l.actuator.name.key ∉ shared)
    (σ : Store Float) :
    ∃ τ, e.machine.run call [] (loops.flatMap Loop.lines) σ = some τ ∧
      (∀ k, k ∉ shared → k ∉ loops.map (·.actuator.name.key) → τ k = σ k) ∧
      ∀ i (hi : i < loops.length), τ loops[i].actuator.name.key =
        held sizes (σ discreteName.key) ((loops.take (i + 1)).map (σ ·.calculated.key)) := by
  induction loops generalizing σ with
  | nil => exact ⟨σ, rfl, fun _ _ _ => rfl, fun i hi => absurd hi (Nat.not_lt_zero i)⟩
  | cons l loops ih =>
    obtain ⟨first, rest, disjoint⟩ := List.nodup_append.1 (List.flatMap_cons ▸ nodup)
    obtain ⟨lApart, apart⟩ := List.forall_mem_cons.1 apart
    have keyMem (k : String) {x : Loop} (hx : x ∈ loops) (hk : k ∈ x.keys) :
        k ∈ loops.flatMap Loop.keys := List.mem_flatMap.2 ⟨x, hx, hk⟩
    obtain ⟨τ, hτ, chosen, taken, others⟩ :=
      run_loop usual picks lApart (loops.flatMap Loop.lines) σ
    obtain ⟨υ, hυ, frame, values⟩ := ih rest apart τ
    refine ⟨υ, ?_, ?_, ?_⟩
    · rw [List.flatMap_cons, hτ, hυ]
    · intro k hk hne
      simp only [List.map_cons, List.mem_cons, not_or] at hne
      rw [frame k hk hne.2, others k hk hne.1]
    · intro i hi
      cases i with
      | zero =>
        -- later loops leave the actuator of the first alone
        have later : l.actuator.name.key ∉ loops.map (·.actuator.name.key) := by
          intro h
          obtain ⟨x, hx, same⟩ := List.mem_map.1 h
          exact disjoint _ (by simp [Loop.keys]) _ (keyMem _ hx (by simp [Loop.keys])) same.symm
        show υ l.actuator.name.key = _
        rw [frame _ lApart.2 later, taken, chosen]
        rfl
      | succ i =>
        have hi' : i < loops.length := Nat.lt_of_succ_lt_succ hi
        -- the flows of later loops are what they were
        have flows : (loops.take (i + 1)).map (τ ·.calculated.key) =
            (loops.take (i + 1)).map (σ ·.calculated.key) := by
          refine List.map_congr_left fun x hx => ?_
          have hx := List.mem_of_mem_take hx
          refine others _ (apart x hx).1 fun same => ?_
          exact disjoint _ (by simp [Loop.keys]) _ (keyMem _ hx (by simp [Loop.keys])) same.symm
        show υ loops[i].actuator.name.key = _
        rw [values i hi', flows, chosen]
        rfl

end Execution

/-! ## Main result -/

/-- The subroutine of a built measure picks a package. -/
theorem Objects.picks {s : Sizing} {sizes : List Float} (o : Objects s sizes)
    {e : Evaluation Float} (usual : e.Usual sizes) {m : Model} (subroutines : m.subroutines = [o.pick])
    (depth : Nat) (σ : Store Float) :
    ∃ τ, m.call e.machine (depth + 1) selectName σ = some τ ∧ Picks sizes σ τ := by
  obtain ⟨default, hdefault, subject, comparison, reads, target, -⟩ :=
    TableText.reads_of_table o.table_eq
  cases hdefault
  have body : m.subroutine? selectName = some o.pick.body := by
    simp [subroutine?, subroutines, o.pick_name]
  have run : e.machine.execute m.subroutine? (depth + 1) o.pick.body σ =
      some (e.machine.perform (o.table.choose (e.machine.holds · σ)) σ) := by
    rw [Machine.execute, o.pick_lines, ← List.append_nil o.table.statements,
      Machine.run_table _ _ _ active_nil, Machine.run]
  refine ⟨_, by rw [call, body, Option.bind_some, run], ?_⟩
  have dummy : o.table.otherwise.target.key = "DUMMY" := by
    rw [Name.key, target]
    decide
  have rows : List.Forall₂ RuleText.Reads (sizes.map row) o.table.rules := reads
  exact picks_rows usual (Name.eq_of_text subject) comparison dummy σ (fun _ hp => hp) rows

/-- The sizes of a measure that builds are finite and ascend. -/
theorem Objects.sorted {s : Sizing} {sizes : List Float} (o : Objects s sizes)
    (hs : s.sizes = .ok sizes) :
    (∀ p ∈ sizes, p.isFinite = true) ∧ sizes.Pairwise (· ≤ ·) := by
  obtain ⟨default, -, -, -, reads, -⟩ := TableText.reads_of_table o.table_eq
  have finite : ∀ p ∈ sizes, p.isFinite = true := by
    intro p hp
    obtain ⟨r, -, bound, -⟩ := exists_of_mem_forall₂ reads (List.mem_map_of_mem hp)
    have bound : r.boundary.value = p := bound
    exact bound ▸ r.boundary.finite
  exact ⟨finite, (readsSizes hs).ascending.imp Number.le_of_lt⟩

/-- A loop without a covering package is promised its own flow, which it gets only where the
    global happens to hold it. -/
theorem promised_iff {sizes : List Float} (finite : ∀ p ∈ sizes, p.isFinite = true)
    (sorted : sizes.Pairwise (· ≤ ·)) (before flow : Float) :
    Promised sizes flow (held sizes before [flow]) ↔
      (∃ p ∈ sizes, flow ≤ p) ∨ (∀ p ∈ sizes, p < flow) ∧ before = flow := by
  cases hf : sizes.find? (flow ≤ ·) with
  | some p =>
    have result : held sizes before [flow] = p := by simp [held, hf]
    have smallest := isSmallest_of_find? sorted finite hf
    rw [result]
    exact ⟨fun _ => .inl ⟨p, smallest.mem, smallest.covers⟩, fun _ => .inl smallest⟩
  | none =>
    have result : held sizes before [flow] = before := by simp [held, hf]
    have none : ∀ p ∈ sizes, ¬ flow ≤ p := by simpa using hf
    rw [result]
    constructor
    · rintro (h | h)
      · exact absurd h.covers (none _ h.mem)
      · exact .inr h
    · rintro (⟨p, hp, hc⟩ | h)
      · exact absurd hc (none p hp)
      · exact .inr h

/-- The program of a measure that builds comes to an end, whatever the flows are.  Each loop gets
    what the shared global holds after the flows up to its own: the package of the last covered
    flow, or what was there before the run.  So it gets what the module text promises exactly when
    a package covers its flow, or when its flow lies above all packages and the global holds that
    very flow already. -/
theorem runProgram_sizing {s : Sizing} {sizes : List Float} (hs : s.sizes = .ok sizes)
    {a next : Numbering} {m : Model}
    (hb : (Measure.discretePackageSizing s).build a = .ok (m, next)) {e : Evaluation Float}
    (usual : e.Usual sizes) (depth : Nat) (σ : Store Float) :
    ∃ τ, m.runProgram e.machine (depth + 2) s.program σ = some τ ∧
      ∀ i (hi : i < s.airLoops.length),
        let flow (airLoop : String) : Float := σ (Text.asciiUpper (calculatedName airLoop))
        let before := held sizes (σ (Text.asciiUpper discreteFlow)) ((s.airLoops.take i).map flow)
        let result := τ (Text.asciiUpper (actuatorName s.airLoops[i]))
        result = held sizes before [flow s.airLoops[i]] ∧
          (Promised sizes (flow s.airLoops[i]) result ↔
            (∃ p ∈ sizes, flow s.airLoops[i] ≤ p) ∨
              (∀ p ∈ sizes, p < flow s.airLoops[i]) ∧ before = flow s.airLoops[i]) := by
  obtain ⟨o, hall⟩ := exists_objects hs hb
  obtain ⟨programs, subroutines⟩ := Objects.bodies hall
  have nodup := Objects.nodup_keys hall
  obtain ⟨finite, sorted⟩ := o.sorted hs
  have loopKeys : (o.loops.flatMap Loop.keys).Nodup :=
    (List.nodup_cons.1 (List.nodup_cons.1 nodup).2).2
  obtain ⟨τ, hτ, -, values⟩ := run_loops usual (o.picks usual subroutines depth) loopKeys
    (fun l hl => l.not_mem_shared nodup hl) σ
  refine ⟨τ, ?_, fun i hi => ?_⟩
  · rw [runProgram_of_programs programs o.program_name, o.program_lines, hτ]
  · -- from the loops of the objects back to those of the measure
    have count : o.loops.length = s.airLoops.length := by rw [← o.loops_eq, List.length_map]
    have loop : o.loops[i].airLoop = s.airLoops[i] := by simp [← o.loops_eq]
    have flows (l : Loop) : l.calculated.key = Text.asciiUpper (calculatedName l.airLoop) := by
      rw [Name.key, l.calculated_text]
    have target : o.loops[i].actuator.name.key = Text.asciiUpper (actuatorName s.airLoops[i]) := by
      rw [Name.key, o.loops[i].actuator_text, loop]
    intro flow before result
    have taken : (o.loops.take (i + 1)).map (σ ·.calculated.key) =
        (s.airLoops.take (i + 1)).map flow := by
      rw [← o.loops_eq, ← List.map_take, List.map_map]
      exact List.map_congr_left fun l _ => congrArg σ (flows l)
    have split : (s.airLoops.take (i + 1)).map flow =
        (s.airLoops.take i).map flow ++ [flow s.airLoops[i]] := by
      rw [List.take_succ_eq_append_getElem hi, List.map_append, List.map_singleton]
    have value : result = held sizes before [flow s.airLoops[i]] := by
      show τ (Text.asciiUpper (actuatorName s.airLoops[i])) = _
      rw [← target, values i (count ▸ hi), taken, split, held, List.foldl_append]
      rfl
    exact ⟨value, value ▸ promised_iff finite sorted before _⟩

/-- Two loops and one package. -/
def twoLoops : Sizing :=
  { default with airLoops := ["A", "B"], packageSizes := ["1.0"] }

/-- A flow that the package covers, then one above it. -/
def twoFlows : Store Float := fun key =>
  if key = "A_CALCMAINSUPVDOT" then 0.5 else if key = "B_CALCMAINSUPVDOT" then 2.0 else 0.0

/-- The second loop gets the package of the first instead of its own flow. -/
theorem runProgram_twoLoops : ∃ (m : Model) (next : Numbering) (τ : Store Float),
    (Measure.discretePackageSizing twoLoops).build .first = .ok (m, next) ∧
      m.runProgram Evaluation.literal.machine 2 twoLoops.program twoFlows = some τ ∧
      τ "BMAINSUPVDOTSET" = 1.0 ∧ ¬ Promised [1.0] 2.0 (τ "BMAINSUPVDOTSET") := by
  have sizes : twoLoops.sizes = .ok [1.0] := eq_ok_of_toOption (by decide +kernel)
  have builds : ((Measure.discretePackageSizing twoLoops).build .first).isOk = true := by
    decide +kernel
  obtain ⟨⟨m, next⟩, built⟩ := exists_of_isOk builds
  have usual : Evaluation.literal.Usual [1.0] := by
    refine Evaluation.usual_literal fun y hy => ?_
    rw [List.mem_singleton.1 hy]
    exact ⟨by decide +kernel, by decide +kernel⟩
  obtain ⟨τ, run, values⟩ := runProgram_sizing sizes built usual 0 twoFlows
  have target : Text.asciiUpper (actuatorName "B") = "BMAINSUPVDOTSET" := by decide +kernel
  have flowA : twoFlows (Text.asciiUpper (calculatedName "A")) = 0.5 := by decide +kernel
  have flowB : twoFlows (Text.asciiUpper (calculatedName "B")) = 2.0 := by decide +kernel
  have before : held [1.0] (twoFlows (Text.asciiUpper discreteFlow)) [0.5] = 1.0 := by
    decide +kernel
  obtain ⟨value, promised⟩ := values 1 (by decide)
  simp only [twoLoops, List.getElem_cons_succ, List.getElem_cons_zero, List.take_succ_cons,
    List.take_zero, List.map_cons, List.map_nil, target, flowA, flowB, before] at value promised
  refine ⟨m, next, τ, built, run, value.trans (by decide +kernel), fun h => ?_⟩
  have above : ¬ ((∃ p ∈ [(1.0 : Float)], 2.0 ≤ p) ∨
      (∀ p ∈ [(1.0 : Float)], p < 2.0) ∧ (1.0 : Float) = 2.0) := by decide +kernel
  exact above (promised.1 h)

end BuildingControl.Measure.Sizing
