/-
  BuildingControl.Proofs.Measure.Condenser

  What the program for condenser loops does.  Every loop has three variables of its
  own, which are all declared and therefore differ, however the names of the loops
  look after sanitizing (`nodup_keys`); so the branch of one loop leaves the
  variables of the others alone.  While it is colder outside than the threshold, the
  program switches every loop and its pump off and reports it; otherwise it hands
  them back (`runProgram_condenser`).
-/
import BuildingControl.Proofs.Erl.Arithmetic
import BuildingControl.Proofs.Measure.Closed
import BuildingControl.Proofs.Measure.Host

namespace BuildingControl.Measure.Condenser

open Erl Model

/-! ## Keys -/

/-- The key of the outdoor temperature. -/
def outdoorKey : String := Text.asciiUpper outdoor

/-- The key of the actuator of a loop with its number. -/
def loopKey (l : CondenserLoop × Nat) : String := Text.asciiUpper (loopActuator l.1 l.2)

/-- The key of the actuator of its pump. -/
def pumpKey (l : CondenserLoop × Nat) : String := Text.asciiUpper (pumpActuator l.1 l.2)

/-- The key of its report. -/
def reportKey (l : CondenserLoop × Nat) : String := Text.asciiUpper (reportName l.2)

/-- The keys of the variables of a loop. -/
def keys (l : CondenserLoop × Nat) : List String := [reportKey l, loopKey l, pumpKey l]

/-! ## The variables of the loops -/

/-- The objects of a loop take the keys of its variables. -/
theorem sublist_slots {l : CondenserLoop × Nat} {ds : List Declaration}
    (h : AllOk (loopScript l.1 l.2) ds) :
    ((keys l).map Slot.name).Sublist (ds.filterMap Declaration.slot?) := by
  obtain ⟨_, _, h4, -, rfl⟩ := allOk_append_iff.1 h
  obtain ⟨_, _, h3, -, rfl⟩ := allOk_append_iff.1 h4
  obtain ⟨_, pumps, h2, hpump, rfl⟩ := allOk_append_iff.1 h3
  obtain ⟨globals, loops, hglobal, hloop, rfl⟩ := allOk_append_iff.1 h2
  obtain ⟨report, reported, rfl⟩ := Script.allOk_global_iff.1 hglobal
  obtain ⟨n, loop, hn, onLoop, rfl⟩ := Script.allOk_actuator_iff.1 hloop
  obtain ⟨k, pump, hk, onPump, rfl⟩ := Script.allOk_actuator_iff.1 hpump
  have slots : [.global report, .actuator loop, .actuator pump].filterMap Declaration.slot? =
      (keys l).map Slot.name := by
    simp [Declaration.slot?, Declaration.binding?, keys, Name.key, reportKey, loopKey, pumpKey,
      reported, Script.name_of_ofComponent onLoop, hn, Script.name_of_ofComponent onPump, hk]
  rw [List.filterMap_append, List.filterMap_append, List.append_assoc, ← slots]
  exact List.sublist_append_left _ _

/-- A model declares the variables of a loop: the actuators of the loop and of its pump, and a
    global. -/
structure Declares (m : Model) (l : CondenserLoop × Nat) : Prop where
  loop : ∃ x ∈ m.actuators, x.name.key = loopKey l ∧ x.component = l.1.name ∧
    x.componentType = "Plant Loop Overall" ∧ x.control = "On/Off Supervisory"
  pump : ∃ x ∈ m.actuators, x.name.key = pumpKey l ∧ x.component = l.1.pump ∧
    x.componentType = "Pump" ∧ x.control = "Pump Mass Flow Rate"
  report : ∃ g ∈ m.globals, g.key = reportKey l

section Declared

variable {c : Condenser} {a : Numbering} {m : Model} (h : (c.script a).run .empty = .ok m)

include h

/-- The variables of the loops and the outdoor temperature are pairwise different. -/
theorem nodup_keys : (outdoorKey :: (c.loops.zipIdx a.next).flatMap keys).Nodup := by
  obtain ⟨ds, all, declared⟩ := Script.run_eq_ok_iff.1 h
  obtain ⟨threshold, -, shape⟩ := outline h
  -- the objects of a model take slots of their own, and each variable takes one
  obtain ⟨-, apart, -, -⟩ := declareAll_eq_ok_iff.1 declared
  rw [shape] at all
  obtain ⟨sensors, _, hsensor, later, rfl⟩ := allOk_append_iff.1 all
  obtain ⟨loops, others, hloops, -, rfl⟩ := allOk_append_iff.1 later
  obtain ⟨n, hn, rfl⟩ := Script.allOk_sensor_iff.1 hsensor
  have outside : Declaration.slot? (.sensor ⟨n, "Environment",
      "Site Outdoor Air Drybulb Temperature"⟩) = some (.name outdoorKey) := by
    simp [Declaration.slot?, Declaration.binding?, Name.key, hn, outdoorKey]
  rw [List.singleton_append, List.filterMap_cons_some outside, List.filterMap_append] at apart
  have ofLoops := hloops.sublist_flatMap fun l _ part all => sublist_slots all
  rw [← List.map_flatMap] at ofLoops
  have part := ofLoops.trans
    (List.sublist_append_left _ (others.filterMap Declaration.slot?))
  exact List.Nodup.of_map Slot.name (apart.sublist (part.cons_cons _))

theorem declares_loop {l : CondenserLoop × Nat} (hl : l ∈ c.loops.zipIdx a.next) :
    Declares m l := by
  have sub := loopScript_subset h hl
  have loopPart : Script.actuator (loopActuator l.1 l.2) l.1.name .plantLoop "On/Off Supervisory" ⊆
      c.script a := fun x hx => sub (by simp [loopScript, hx])
  have pumpPart : Script.actuator (pumpActuator l.1 l.2) l.1.pump (.pump l.1.pumpSpeed)
      "Pump Mass Flow Rate" ⊆ c.script a := fun x hx => sub (by simp [loopScript, hx])
  have reportPart : Script.global (reportName l.2) ⊆ c.script a :=
    fun x hx => sub (by simp [loopScript, hx])
  obtain ⟨x, hx, loopName, onLoop⟩ := Script.exists_actuator_of_part h loopPart
  obtain ⟨y, hy, pumpName, onPump⟩ := Script.exists_actuator_of_part h pumpPart
  obtain ⟨g, hg, reported⟩ := Script.exists_global_of_part h reportPart
  have supervised : ComponentKind.plantLoop.control? "On/Off Supervisory" =
      some "On/Off Supervisory" := by decide
  have offered (speed : PumpSpeed) : (ComponentKind.pump speed).control? "Pump Mass Flow Rate" =
      some "Pump Mass Flow Rate" := by
    cases speed <;> decide
  have loop := Script.eq_of_ofComponent onLoop rfl supervised
  have pump := Script.eq_of_ofComponent onPump rfl (offered l.1.pumpSpeed)
  exact {
    loop := ⟨x, hx, congrArg Text.asciiUpper loopName, by rw [loop], by rw [loop], by rw [loop]⟩
    pump := ⟨y, hy, congrArg Text.asciiUpper pumpName, by rw [pump], by rw [pump], by rw [pump]⟩
    report := ⟨g, hg, congrArg Text.asciiUpper reported⟩ }

end Declared

/-! ## The branch of a loop -/

section Branch

variable {V : Type}

/-- The lines that set the two actuators of a loop and its report. -/
def assignments (l : CondenserLoop × Nat) (control report : String) : Draft :=
  Draft.set (loopActuator l.1 l.2) control ++ Draft.set (pumpActuator l.1 l.2) control ++
    Draft.set (reportName l.2) report

theorem loopBody_eq (threshold : Float) (l : CondenserLoop × Nat) :
    loopBody threshold l.1 l.2 = Draft.ifCompare outdoor .lt threshold ++
      assignments l "0.0" "1.0" ++ Draft.push .otherwise ++ assignments l "Null" "0.0" ++
      Draft.push .endIf := by
  simp only [loopBody, assignments, List.append_assoc]

/-- The state with these values in the variables of a loop. -/
def assign (l : CondenserLoop × Nat) (control report : V) (σ : Store V) : Store V :=
  Function.update (Function.update (Function.update σ (loopKey l) control) (pumpKey l) control)
    (reportKey l) report

theorem assign_of_not_mem {l : CondenserLoop × Nat} {k : String} (h : k ∉ keys l)
    (control report : V) (σ : Store V) : assign l control report σ k = σ k := by
  simp only [keys, List.mem_cons, List.not_mem_nil, or_false, not_or] at h
  rw [assign, Function.update_of_ne h.1, Function.update_of_ne h.2.2, Function.update_of_ne h.2.1]

theorem assign_keys {l : CondenserLoop × Nat} (h : (keys l).Nodup) (control report : V)
    (σ : Store V) : assign l control report σ (loopKey l) = control ∧
      assign l control report σ (pumpKey l) = control ∧
      assign l control report σ (reportKey l) = report := by
  have apart : (reportKey l ≠ loopKey l ∧ reportKey l ≠ pumpKey l) ∧ loopKey l ≠ pumpKey l := by
    simpa [keys] using h
  refine ⟨?_, ?_, Function.update_self _ _ _⟩
  · rw [assign, Function.update_of_ne apart.1.1.symm, Function.update_of_ne apart.2,
      Function.update_self]
  · rw [assign, Function.update_of_ne apart.1.2.symm, Function.update_self]

variable {A : Arithmetic V} {call : Name → Store V → Option (Store V)} {branches : List Branch}

theorem takes_assignments (reached : active branches = true) {l : CondenserLoop × Nat}
    {control report : String} {v w : V} (hv : ∀ σ, A.Yields σ control v)
    (hw : ∀ σ, A.Yields σ report w) (σ : Store V) :
    (assignments l control report).Takes A.evaluation.machine call branches σ (assign l v w σ) :=
  ((Draft.takes_set reached (hv _)).append (Draft.takes_set reached (hv _))).append
    (Draft.takes_set reached (hw _))

theorem skips_assignments {l : CondenserLoop × Nat} {control report : String} :
    (assignments l control report).Skips A.evaluation.machine call :=
  (Draft.skips_set.append Draft.skips_set).append Draft.skips_set

end Branch

/-! ## The program -/

section Program

variable {K : Type} [Field K] [LinearOrder K] {calls : String → List K → K}
  {test : Expression → Store K → Bool}
  {call : Name → Store (Option K) → Option (Store (Option K))}

/-- What the program leaves in the variables of a loop, by whether it is cold: the loop and the
    pump are off, and reported to be, or they are handed back. -/
structure Overridden (cold : Bool) (l : CondenserLoop × Nat) (τ : Store (Option K)) : Prop where
  loop : τ (loopKey l) = if cold then some 0 else none
  pump : τ (pumpKey l) = if cold then some 0 else none
  report : τ (reportKey l) = some (if cold then 1 else 0)

theorem yields_number {x : Float} {text : String} (written : Number.format x = text)
    (finite : x.isFinite = true) (reads : Decimal.read text = .ok x) (σ : Store (Option K)) :
    (Arithmetic.exact calls test).withNull.Yields σ text (some (Number.exact x : K)) := by
  rw [← written] at reads ⊢
  exact Arithmetic.yields_format finite reads

theorem yields_zero (σ : Store (Option K)) :
    (Arithmetic.exact calls test).withNull.Yields σ "0.0" (some 0) := by
  have written : Number.format 0.0 = "0.0" := by decide +kernel
  have yields : (Arithmetic.exact calls test).withNull.Yields σ "0.0"
      (some (Number.exact 0.0 : K)) :=
    yields_number written (by decide +kernel) (by decide +kernel) σ
  simpa using yields

theorem yields_one (σ : Store (Option K)) :
    (Arithmetic.exact calls test).withNull.Yields σ "1.0" (some 1) := by
  have written : Number.format 1.0 = "1.0" := by decide +kernel
  have yields : (Arithmetic.exact calls test).withNull.Yields σ "1.0"
      (some (Number.exact 1.0 : K)) :=
    yields_number written (by decide +kernel) (by decide +kernel) σ
  simpa using yields

theorem yields_null (σ : Store (Option K)) :
    (Arithmetic.exact calls test).withNull.Yields σ "Null" none :=
  Arithmetic.yields_of_means [.name "Null".toList] (by decide) (by decide)
    (.term (.single (.alone (.word "Null".toList))))

/-- The branch of one loop sets the variables of the loop and no others. -/
theorem takes_loopBody (threshold : Float) {l : CondenserLoop × Nat} (apart : (keys l).Nodup)
    {σ : Store (Option K)} {cold : Bool}
    (compares : (Arithmetic.exact calls test).withNull.compares .lt (σ outdoorKey) threshold =
      cold) :
    ∃ τ, (loopBody threshold l.1 l.2).Takes
        (Arithmetic.exact calls test).withNull.evaluation.machine call [] σ τ ∧
      (∀ k, k ∉ keys l → τ k = σ k) ∧ Overridden cold l τ := by
  rw [loopBody_eq]
  cases cold with
  | true =>
    obtain ⟨loop, pump, report⟩ := assign_keys apart (some 0) (some (1 : K)) σ
    refine ⟨assign l (some 0) (some 1) σ, ?_, fun k hk => assign_of_not_mem hk _ _ σ,
      loop, pump, report⟩
    refine Draft.takes_ifElse rfl skips_assignments skips_assignments
      (fun _ => takes_assignments rfl yields_zero yields_one σ) fun warm => ?_
    exact absurd (compares.symm.trans warm) (by simp)
  | false =>
    obtain ⟨loop, pump, report⟩ := assign_keys apart none (some (0 : K)) σ
    refine ⟨assign l none (some 0) σ, ?_, fun k hk => assign_of_not_mem hk _ _ σ,
      loop, pump, report⟩
    refine Draft.takes_ifElse rfl skips_assignments skips_assignments (fun below => ?_)
      fun _ => takes_assignments rfl yields_null yields_zero σ
    exact absurd (compares.symm.trans below) (by simp)

variable (call) in
/-- The branches of all loops: each sets the variables of its own loop. -/
theorem takes_body (c : Condenser) (a : Numbering) (threshold : Float)
    (apart : (outdoorKey :: (c.loops.zipIdx a.next).flatMap keys).Nodup) (σ : Store (Option K))
    {cold : Bool}
    (compares : (Arithmetic.exact calls test).withNull.compares .lt (σ outdoorKey) threshold =
      cold) :
    ∃ τ, (c.body threshold a).Takes
        (Arithmetic.exact calls test).withNull.evaluation.machine call [] σ τ ∧
      (∀ k, (∀ l ∈ c.loops.zipIdx a.next, k ∉ keys l) → τ k = σ k) ∧
      ∀ l ∈ c.loops.zipIdx a.next, Overridden cold l τ := by
  obtain ⟨outside, apart⟩ := List.nodup_cons.1 apart
  obtain ⟨each, pairs⟩ := List.nodup_flatMap.1 apart
  let Result (l : CondenserLoop × Nat) (σ τ : Store (Option K)) : Prop := Overridden
    ((Arithmetic.exact calls test).withNull.compares .lt (σ outdoorKey) threshold) l τ
  -- what a loop is left with depends on its variables and the outdoor temperature alone
  have congr (l : CondenserLoop × Nat) {σ σ' τ τ' : Store (Option K)}
      (before : Set.EqOn σ σ' ({k | k ∈ keys l} ∪ {outdoorKey}))
      (after : Set.EqOn τ τ' {k | k ∈ keys l}) (result : Result l σ τ) : Result l σ' τ' := by
    have kept (k : String) (hk : k ∈ keys l) : τ' k = τ k := (after hk).symm
    show Overridden
      ((Arithmetic.exact calls test).withNull.compares .lt (σ' outdoorKey) threshold) l τ'
    rw [← before (.inr rfl)]
    exact {
      loop := (kept _ (by simp [keys])).trans result.loop
      pump := (kept _ (by simp [keys])).trans result.pump
      report := (kept _ (by simp [keys])).trans result.report }
  obtain ⟨τ, takes, frame, results⟩ := Draft.takes_flatMap_of_apart (fun l => {k | k ∈ keys l})
    {outdoorKey} Result
    (pairs.imp fun disjoint k hk hl => disjoint hk hl)
    (by
      rintro l hl _ mine rfl
      exact outside (List.mem_flatMap.2 ⟨l, hl, mine⟩))
    (fun l hl σ => takes_loopBody threshold (each l hl) rfl)
    (fun l _ σ σ' τ τ' => congr l) σ
  simp only [Result, compares] at results
  exact ⟨τ, takes, frame, results⟩

end Program

/-! ## The measure -/

/-- What the measure does, whatever loops it is given and whatever they are called.  Every loop has
    its own three variables, which differ from each other and from those of all other loops; the
    program sets them by the outdoor temperature, and no others. -/
theorem runProgram_condenser {K : Type} [Field K] [LinearOrder K] {c : Condenser}
    {a next : Numbering} {m : Model}
    (built : (Measure.condenserLoopOverride c).build a = .ok (m, next))
    (calls : String → List K → K) (test : Expression → Store K → Bool) (depth : Nat)
    {σ : Store (Option K)} {T : K} (reading : σ outdoorKey = some T) :
    ∃ threshold, c.thresholdCelsius = .ok threshold ∧
      (∃ s ∈ m.sensors, s.name.key = outdoorKey ∧ s.key = "Environment" ∧
        s.output = "Site Outdoor Air Drybulb Temperature") ∧
      (∀ l ∈ c.loops.zipIdx a.next, Declares m l) ∧
      (outdoorKey :: (c.loops.zipIdx a.next).flatMap keys).Nodup ∧
      ∃ τ, m.runProgram (Arithmetic.exact calls test).withNull.evaluation.machine (depth + 1)
          c.program σ = some τ ∧
        (∀ l ∈ c.loops.zipIdx a.next,
          Overridden (decide (T < (Number.exact threshold : K))) l τ) ∧
        ∀ k, (∀ l ∈ c.loops.zipIdx a.next, k ∉ keys l) → τ k = σ k := by
  have ran : (c.script a).run .empty = .ok m := (build_eq_ok_iff.1 built).1
  obtain ⟨threshold, limit, shape⟩ := outline ran
  have sensor : Script.sensor outdoor "Environment" "Site Outdoor Air Drybulb Temperature" ⊆
      c.script a := fun x hx => by simp [shape, hx]
  obtain ⟨s, hs, name, key, output⟩ := Script.exists_sensor_of_part ran sensor
  rw [← List.append_assoc] at shape
  obtain ⟨p, programs, named, body⟩ := Script.exists_programs_eq ran Script.isProgram_program shape
    (by simp [loopScript]) (by simp)
  have compares : (Arithmetic.exact calls test).withNull.compares .lt (σ outdoorKey) threshold =
      decide (T < (Number.exact threshold : K)) := by
    rw [reading]
    rfl
  obtain ⟨τ, takes, frame, results⟩ := takes_body
    (m.call (Arithmetic.exact calls test).withNull.evaluation.machine depth) c a threshold
    (nodup_keys ran) σ compares
  refine ⟨threshold, limit, ⟨s, hs, congrArg Text.asciiUpper name, key, output⟩,
    fun l hl => declares_loop ran hl, nodup_keys ran, τ, ?_, results, frame⟩
  rw [runProgram_of_programs programs named]
  exact takes.run body

/-- Two loops that are alike once sanitized. -/
def towers : Condenser where
  loops := [⟨"Tower 1", "P", .constant⟩, ⟨"Tower-1", "Q", .variable⟩]
  threshold := "42.8 F"
  program := "Control"
  manager := "M"

/-- Two degrees outside. -/
def twoDegrees : Store (Option ℚ) := fun _ => some 2

/-- Below six degrees both of them are off. -/
theorem runProgram_condenser_towers : ∃ m next τ,
    (Measure.condenserLoopOverride towers).build .first = .ok (m, next) ∧
      twoDegrees outdoorKey = some 2 ∧
      m.runProgram (Arithmetic.exact (fun _ _ => 0) fun _ _ => false).withNull.evaluation.machine 1
        "Control" twoDegrees = some τ ∧
      ∀ l ∈ towers.loops.zipIdx 1, (keys l).map τ = [some 1, some 0, some 0] := by
  have builds : ((Measure.condenserLoopOverride towers).build .first).isOk = true := by
    decide +kernel
  obtain ⟨⟨m, next⟩, built⟩ := exists_of_isOk builds
  have reading : twoDegrees outdoorKey = some 2 := rfl
  obtain ⟨threshold, limit, -, -, -, τ, ran, results, -⟩ :=
    runProgram_condenser built (fun _ _ => 0) (fun _ _ => false) 0 reading
  have six : towers.thresholdCelsius.toOption.map Number.exact = some 6 := by decide +kernel
  rw [limit] at six
  have value : Number.exact threshold = 6 := Option.some.inj six
  refine ⟨m, next, τ, built, reading, ran, fun l hl => ?_⟩
  obtain ⟨loop, pump, report⟩ := results l hl
  have cold : decide ((2 : ℚ) < 6) = true := by decide
  rw [value, Rat.cast_id, cold] at loop pump report
  simp only [keys, List.map_cons, List.map_nil, loop, pump, report, if_true]

end BuildingControl.Measure.Condenser
