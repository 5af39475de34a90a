/-
  BuildingControl.Proofs.Measure.Heating

  What the programs for variable refrigerant flow do.  Every unit has variables of its
  own: the numbers of the modes, its mode, and the ratio of each of its terminals.  They
  are all declared, and therefore differ, however the names of the terminals look after
  sanitizing (`key_inj`); so lines of one unit leave the variables of the others alone.
  The first program sets the numbers of the modes.  The second one puts every unit with
  terminals into heating and every terminal at the given ratio, and as it changes
  nothing that it reads, it may run any number of times (`runPrograms_vrf`).
-/
import BuildingControl.Proofs.Erl.Arithmetic
import BuildingControl.Proofs.Erl.Numbered
import BuildingControl.Proofs.Measure.Closed
import BuildingControl.Proofs.Measure.Host

namespace BuildingControl.Measure.Vrf

open Erl Model

/-! ## The variables of a unit -/

/-- The variables of one unit. -/
inductive Variable
  /-- The number of a mode. -/
  | number (mode : Mode)
  /-- The mode that the unit is in. -/
  | unitMode
  /-- The ratio that a terminal runs at. -/
  | ratio (terminal : String)
  deriving DecidableEq

namespace Variable

/-- The name of a variable of unit `n`. -/
def name : Variable → Nat → String
  | number mode, n => mode.global n
  | unitMode, n => modeActuator n
  | ratio terminal, n => ratioActuator terminal n

/-- The key of a variable of unit `n`. -/
def key (x : Variable) (n : Nat) : String := Text.asciiUpper (x.name n)

end Variable

/-- Every variable of a unit. -/
def owned (u : VrfUnit) : List Variable :=
  Mode.all.map .number ++ .unitMode :: u.terminals.map .ratio

/-- The variables of a unit that the programs assign to: a unit without terminals is left in the
    mode it is in. -/
def assigned (u : VrfUnit) : List Variable :=
  Mode.all.map .number ++ u.terminals.flatMap fun terminal => [.unitMode, .ratio terminal]

/-- The keys of the variables of a unit with its number. -/
def keys (u : VrfUnit × Nat) : List String :=
  (owned u.1).map fun x => x.key u.2

theorem mem_all (mode : Mode) : mode ∈ Mode.all := by
  cases mode <;> decide

theorem number_mem_owned (u : VrfUnit) (mode : Mode) : .number mode ∈ owned u :=
  List.mem_append_left _ (List.mem_map_of_mem (mem_all mode))

theorem unitMode_mem_owned (u : VrfUnit) : .unitMode ∈ owned u :=
  List.mem_append_right _ List.mem_cons_self

theorem ratio_mem_owned {u : VrfUnit} {terminal : String} (h : terminal ∈ u.terminals) :
    .ratio terminal ∈ owned u :=
  List.mem_append_right _ (List.mem_cons_of_mem _ (List.mem_map_of_mem h))

theorem number_mem_assigned (u : VrfUnit) (mode : Mode) : .number mode ∈ assigned u :=
  List.mem_append_left _ (List.mem_map_of_mem (mem_all mode))

theorem mem_assigned_of_terminal {u : VrfUnit} {terminal : String} (h : terminal ∈ u.terminals) :
    .unitMode ∈ assigned u ∧ .ratio terminal ∈ assigned u := by
  have pair {x : Variable} (hx : x ∈ [.unitMode, .ratio terminal]) : x ∈ assigned u :=
    List.mem_append_right _ (List.mem_flatMap.2 ⟨terminal, h, hx⟩)
  exact ⟨pair List.mem_cons_self, pair (List.mem_cons_of_mem _ List.mem_cons_self)⟩

/-- Variables of units have different keys: it is one variable of one unit. -/
theorem key_inj {units : List (VrfUnit × Nat)} (apart : (units.flatMap keys).Nodup)
    {u w : VrfUnit × Nat} (hu : u ∈ units) (hw : w ∈ units) {x y : Variable}
    (hx : x ∈ owned u.1) (hy : y ∈ owned w.1) (same : x.key u.2 = y.key w.2) :
    u = w ∧ x = y := by
  -- the keys are those of the pairs of a unit and one of its variables
  have pairs : (units.flatMap fun u => (owned u.1).map fun x => (u, x)).map
      (fun p => p.2.key p.1.2) = units.flatMap keys := by
    rw [List.map_flatMap]
    refine congrArg (List.flatMap · units) (funext fun u => ?_)
    rw [List.map_map]
    rfl
  rw [← pairs] at apart
  have mem {u : VrfUnit × Nat} {x : Variable} (hu : u ∈ units) (hx : x ∈ owned u.1) :
      (u, x) ∈ units.flatMap fun u => (owned u.1).map fun x => (u, x) :=
    List.mem_flatMap.2 ⟨u, hu, List.mem_map_of_mem hx⟩
  have equal := List.inj_on_of_nodup_map apart (mem hu hx) (mem hw hy) same
  exact ⟨congrArg Prod.fst equal, congrArg Prod.snd equal⟩

theorem key_ne {units : List (VrfUnit × Nat)} (apart : (units.flatMap keys).Nodup)
    {u w : VrfUnit × Nat} (hu : u ∈ units) (hw : w ∈ units) {x y : Variable}
    (hx : x ∈ owned u.1) (hy : y ∈ owned w.1) (other : x ≠ y) : x.key u.2 ≠ y.key w.2 :=
  fun same => other (key_inj apart hu hw hx hy same).2

/-! ## Objects -/

/-- What an actuator acts on: its name, the component, the type and the control. -/
def acted? : Declaration → Option (String × String × String × String)
  | .actuator x => some (x.name.text, x.component, x.componentType, x.control)
  | _ => none

/-- The actuators of a unit with its number: its mode, and the ratio of each terminal. -/
def actuators (u : VrfUnit × Nat) : List (String × String × String × String) :=
  (modeActuator u.2, u.1.name, "Variable Refrigerant Flow Heat Pump", "Operating Mode") ::
    u.1.terminals.map fun terminal =>
      (ratioActuator terminal u.2, terminal, "Variable Refrigerant Flow Terminal Unit",
        "Part Load Ratio")

section Objects

variable {u : VrfUnit × Nat} {ds : List Declaration}

/-- The parts of the objects of a unit. -/
theorem exists_parts (h : AllOk (unitScript u.1 u.2) ds) :
    ∃ (gs rs : List Declaration) (x : Actuator) (o : OutputVariable),
      AllOk (Mode.all.flatMap fun mode => Script.global (mode.global u.2)) gs ∧
      AllOk (u.1.terminals.flatMap fun terminal =>
        Script.actuator (ratioActuator terminal u.2) terminal .vrfTerminal "Part Load Ratio") rs ∧
      x.name.text = modeActuator u.2 ∧ x.component = u.1.name ∧
      x.componentType = "Variable Refrigerant Flow Heat Pump" ∧ x.control = "Operating Mode" ∧
      ds = gs ++ .actuator x :: (rs ++ [.output o]) := by
  obtain ⟨_, _, h3, hout, rfl⟩ := allOk_append_iff.1 h
  obtain ⟨_, rs, h2, hrs, rfl⟩ := allOk_append_iff.1 h3
  obtain ⟨gs, _, hgs, hmode, rfl⟩ := allOk_append_iff.1 h2
  obtain ⟨n, x, hn, onMode, rfl⟩ := Script.allOk_actuator_iff.1 hmode
  obtain ⟨k, -, rfl⟩ := Script.allOk_output_iff.1 hout
  have offered : ComponentKind.vrfHeatPump.control? "Operating Mode" = some "Operating Mode" := by
    decide
  have shape := Script.eq_of_ofComponent onMode rfl offered
  have spliced (o : Declaration) : gs ++ [.actuator x] ++ rs ++ [o] =
      gs ++ .actuator x :: (rs ++ [o]) := by simp
  refine ⟨gs, rs, x, _, hgs, hrs, ?_, ?_, ?_, ?_, spliced _⟩ <;> rw [shape]
  exact hn

/-- The objects of a unit take the keys of its variables. -/
theorem sublist_slots (h : AllOk (unitScript u.1 u.2) ds) :
    ((keys u).map Slot.name).Sublist (ds.filterMap Declaration.slot?) := by
  obtain ⟨gs, rs, x, o, hgs, hrs, hx, -, -, -, rfl⟩ := exists_parts h
  have numbers := hgs.filterMap_flatMap (g := Declaration.slot?)
    (h := fun mode => [Slot.name ((Variable.number mode).key u.2)]) fun mode _ part all => by
      obtain ⟨n, hn, rfl⟩ := Script.allOk_global_iff.1 all
      simp [Declaration.slot?, Declaration.binding?, Name.key, Variable.key, Variable.name, hn]
  have ratios := hrs.filterMap_flatMap (g := Declaration.slot?)
    (h := fun terminal => [Slot.name ((Variable.ratio terminal).key u.2)]) fun terminal _ part all => by
      obtain ⟨n, y, hn, onRatio, rfl⟩ := Script.allOk_actuator_iff.1 all
      simp [Declaration.slot?, Declaration.binding?, Name.key, Variable.key, Variable.name,
        Script.name_of_ofComponent onRatio, hn]
  have mode : Declaration.slot? (.actuator x) = some (.name (Variable.unitMode.key u.2)) := by
    simp [Declaration.slot?, Declaration.binding?, Name.key, Variable.key, Variable.name, hx]
  have taken : ((keys u).map Slot.name) = gs.filterMap Declaration.slot? ++
      .name (Variable.unitMode.key u.2) :: rs.filterMap Declaration.slot? := by
    rw [numbers, ratios, ← List.map_eq_flatMap, ← List.map_eq_flatMap, keys, owned, List.map_map,
      List.map_append, List.map_cons, List.map_map, List.map_map]
    rfl
  rw [List.filterMap_append, List.filterMap_cons_some mode, List.filterMap_append, taken]
  exact List.Sublist.append_left ((List.sublist_append_left _ _).cons_cons _) _

/-- The actuators among the objects of a unit. -/
theorem acted_of_unit (h : AllOk (unitScript u.1 u.2) ds) : ds.filterMap acted? = actuators u := by
  obtain ⟨gs, rs, x, o, hgs, hrs, name, component, type, control, rfl⟩ := exists_parts h
  have numbers := hgs.filterMap_flatMap (g := acted?) (h := fun _ => []) fun mode _ part all => by
    obtain ⟨n, -, rfl⟩ := Script.allOk_global_iff.1 all
    rfl
  have offered : ComponentKind.vrfTerminal.control? "Part Load Ratio" = some "Part Load Ratio" := by
    decide
  have ratios := hrs.filterMap_flatMap (g := acted?)
    (h := fun terminal => [(ratioActuator terminal u.2, terminal,
      "Variable Refrigerant Flow Terminal Unit", "Part Load Ratio")]) fun terminal _ part all => by
      obtain ⟨n, y, hn, onRatio, rfl⟩ := Script.allOk_actuator_iff.1 all
      rw [Script.eq_of_ofComponent onRatio rfl offered, ← hn]
      rfl
  have mode : acted? (.actuator x) = some (modeActuator u.2, u.1.name,
      "Variable Refrigerant Flow Heat Pump", "Operating Mode") := by
    rw [acted?, name, component, type, control]
  have report : [Declaration.output o].filterMap acted? = [] := rfl
  have none : Mode.all.flatMap (fun _ => ([] : List (String × String × String × String))) = [] := rfl
  rw [List.filterMap_append, List.filterMap_cons_some mode, List.filterMap_append, numbers, ratios,
    report, none, ← List.map_eq_flatMap, List.append_nil, List.nil_append, actuators]

end Objects

section Declared

variable {v : Vrf} {a : Numbering} {m : Model} (h : (v.script a).run .empty = .ok m)

include h

/-- The objects of the model, those of the units first. -/
theorem exists_units : ∃ ds others,
    AllOk ((v.units.zipIdx a.next).flatMap fun u => unitScript u.1 u.2) ds ∧
    (∀ k, k ≠ .request → m.objects k = (ds ++ others).filter (·.kind = k)) ∧
    others.filterMap acted? = [] ∧ ((ds ++ others).filterMap Declaration.slot?).Nodup := by
  obtain ⟨all, ofScript, declared⟩ := Script.run_eq_ok_iff.1 h
  obtain ⟨-, apart, -, rfl⟩ := declareAll_eq_ok_iff.1 declared
  rw [(outline h).2] at ofScript
  obtain ⟨checks, _, required, later, rfl⟩ := allOk_append_iff.1 ofScript
  obtain ⟨ds, _, units, programs, rfl⟩ := allOk_append_iff.1 later
  obtain ⟨_, _, first, control, rfl⟩ := allOk_append_iff.1 programs
  obtain ⟨_, _, second, managers, rfl⟩ := allOk_append_iff.1 control
  obtain ⟨_, _, third, fourth, rfl⟩ := allOk_append_iff.1 managers
  obtain ⟨_, _, -, -, rfl⟩ := Script.allOk_program_iff.1 first
  obtain ⟨_, _, -, -, rfl⟩ := Script.allOk_program_iff.1 second
  obtain ⟨_, -, rfl⟩ := Script.allOk_manager_iff.1 third
  obtain ⟨_, -, rfl⟩ := Script.allOk_manager_iff.1 fourth
  obtain rfl : checks = [] := by
    obtain ⟨_, met⟩ := Script.exists_of_allOk_require required
    rw [met] at required
    exact allOk_nil_iff.1 required
  refine ⟨ds, _, units, fun k kind => ?_, ?_, apart⟩
  · rw [foldl_push_objects _ _ kind, objects_empty, List.nil_append, List.nil_append]
  · rfl

/-- The variables of the units are pairwise different. -/
theorem nodup_keys : ((v.units.zipIdx a.next).flatMap keys).Nodup := by
  obtain ⟨ds, others, units, -, -, apart⟩ := exists_units h
  have part := units.sublist_flatMap fun u _ part all => sublist_slots all
  rw [← List.map_flatMap] at part
  rw [List.filterMap_append] at apart
  exact List.Nodup.of_map Slot.name (apart.sublist (part.trans (List.sublist_append_left _ _)))

/-- The actuators of the model: for each unit its mode and the ratio of each terminal. -/
theorem actuators_eq : (m.actuators.map fun x => (x.name.text, x.component, x.componentType,
    x.control)) = (v.units.zipIdx a.next).flatMap actuators := by
  obtain ⟨ds, others, units, objects, rest, -⟩ := exists_units h
  have ofUnits := units.filterMap_flatMap fun u _ part all => acted_of_unit all
  have listed := objects .actuator nofun
  have ofModel := congrArg (List.filterMap acted?) listed
  -- only actuators act on something
  have filtered (es : List Declaration) :
      (es.filter (·.kind = .actuator)).filterMap acted? = es.filterMap acted? := by
    rw [List.filterMap_filter]
    refine List.filterMap_congr fun d _ => ?_
    cases d <;> rfl
  rw [filtered, List.filterMap_append, rest, List.append_nil, ofUnits] at ofModel
  rw [← ofModel]
  show _ = (m.actuators.map Declaration.actuator).filterMap acted?
  rw [List.filterMap_map, ← List.filterMap_eq_map]
  rfl

end Declared

/-! ## The lines -/

section Lines

variable {K : Type} [Field K]

/-- The number of a mode. -/
def Mode.value : Mode → K
  | .off => 0
  | .cooling => 1
  | .heating => 2

/-- What the first program sets for a unit with its number. -/
def initSettings (u : VrfUnit × Nat) : List (Setting K) :=
  Mode.all.map fun mode => ⟨(Variable.number mode).name u.2, mode.number, mode.value⟩

/-- What the second program sets for a unit with its number. -/
def controlSettings (v : Vrf) (u : VrfUnit × Nat) : List (Setting K) :=
  u.1.terminals.flatMap fun terminal =>
    [⟨Variable.unitMode.name u.2, (Variable.number .heating).name u.2, 2⟩,
     ⟨(Variable.ratio terminal).name u.2, Number.format v.partLoadRatio,
      Number.exact v.partLoadRatio⟩]

variable (K) in
theorem initBody_eq (v : Vrf) (a : Numbering) :
    v.initBody a =
      ((v.units.zipIdx a.next).flatMap (initSettings (K := K))).flatMap Setting.line := by
  rw [List.flatMap_assoc]
  refine congrArg (List.flatMap · _) (funext fun u => ?_)
  rw [initSettings, List.flatMap_map]
  rfl

variable (K) in
theorem controlBody_eq (v : Vrf) (a : Numbering) :
    v.controlBody a =
      ((v.units.zipIdx a.next).flatMap (controlSettings (K := K) v)).flatMap Setting.line := by
  rw [List.flatMap_assoc]
  refine congrArg (List.flatMap · _) (funext fun u => ?_)
  rw [controlSettings, List.flatMap_assoc]
  refine congrArg (List.flatMap · _) (funext fun terminal => ?_)
  rfl

variable [LinearOrder K] {calls : String → List K → K} {test : Expression → Store K → Bool}

/-- The text of the number of a mode. -/
theorem yields_number (mode : Mode) (σ : Store K) :
    (Arithmetic.exact calls test).Yields σ mode.number mode.value := by
  have numeral {x : Float} {q : ℚ} (text : Number.format x = mode.number)
      (finite : x.isFinite = true) (reads : Number.ReadsBack x) (exact : Number.exact x = q) :
      (Arithmetic.exact calls test).Yields σ mode.number (q : K) := by
    rw [← text, ← exact]
    exact Arithmetic.yields_format_exact finite reads
  cases mode with
  | off =>
    simpa [Mode.value] using numeral (x := 0.0) (q := 0) (by decide +kernel) (by decide +kernel)
      (by decide +kernel) (by decide +kernel)
  | cooling =>
    simpa [Mode.value] using numeral (x := 1.0) (q := 1) (by decide +kernel) (by decide +kernel)
      (by decide +kernel) (by decide +kernel)
  | heating =>
    simpa [Mode.value] using numeral (x := 2.0) (q := 2) (by decide +kernel) (by decide +kernel)
      (by decide +kernel) (by decide +kernel)

/-- The name of the number of heating. -/
theorem yields_heating (n : Nat) (σ : Store K) :
    (Arithmetic.exact calls test).Yields σ ((Variable.number .heating).name n)
      (σ ((Variable.number .heating).key n)) := by
  have null : Text.asciiUpper "NULL" = nullKey := by decide
  have word : isWord ("vrf_status_heating_" ++ toString n).toList = true :=
    isWord_numbered (by decide) n
  have other : Text.asciiUpper ("vrf_status_heating_" ++ toString n) ≠ nullKey := by
    rw [← null]
    exact asciiUpper_numbered_ne _ n (by decide)
  exact Arithmetic.yields_word word other

end Lines

/-! ## The programs -/

section Programs

variable {K : Type} [Field K] {units : List (VrfUnit × Nat)}

theorem mem_initSettings {s : Setting K} : s ∈ units.flatMap initSettings ↔
    ∃ u ∈ units, ∃ mode : Mode, s = ⟨(Variable.number mode).name u.2, mode.number, mode.value⟩ := by
  simp only [List.mem_flatMap, initSettings, List.mem_map]
  refine exists_congr fun u => and_congr_right fun _ => ?_
  constructor
  · rintro ⟨mode, -, rfl⟩
    exact ⟨mode, rfl⟩
  · rintro ⟨mode, rfl⟩
    exact ⟨mode, mem_all mode, rfl⟩

theorem mem_controlSettings {v : Vrf} {s : Setting K} :
    s ∈ units.flatMap (controlSettings v) ↔ ∃ u ∈ units, ∃ terminal ∈ u.1.terminals,
      s = ⟨Variable.unitMode.name u.2, (Variable.number .heating).name u.2, 2⟩ ∨
      s = ⟨(Variable.ratio terminal).name u.2, Number.format v.partLoadRatio,
        Number.exact v.partLoadRatio⟩ := by
  simp only [List.mem_flatMap, controlSettings, List.mem_cons, List.not_mem_nil, or_false]

/-- The state after the first program. -/
def initialized (units : List (VrfUnit × Nat)) (σ : Store K) : Store K :=
  Setting.perform (units.flatMap initSettings) σ

/-- The state after the second program. -/
def controlled (v : Vrf) (units : List (VrfUnit × Nat)) (σ : Store K) : Store K :=
  Setting.perform (units.flatMap (controlSettings v)) σ

theorem initialized_of_ne {k : String}
    (other : ∀ u ∈ units, ∀ mode, k ≠ (Variable.number mode).key u.2) (σ : Store K) :
    initialized units σ k = σ k := by
  refine Setting.perform_of_not_mem (fun s hs => ?_) σ
  obtain ⟨u, hu, mode, rfl⟩ := mem_initSettings.1 hs
  exact other u hu mode

theorem controlled_of_ne {v : Vrf} {k : String}
    (other : ∀ u ∈ units, ∀ terminal ∈ u.1.terminals,
      k ≠ Variable.unitMode.key u.2 ∧ k ≠ (Variable.ratio terminal).key u.2) (σ : Store K) :
    controlled v units σ k = σ k := by
  refine Setting.perform_of_not_mem (fun s hs => ?_) σ
  obtain ⟨u, hu, terminal, ht, rfl | rfl⟩ := mem_controlSettings.1 hs
  · exact (other u hu terminal ht).1
  · exact (other u hu terminal ht).2

section Apart

variable (apart : (units.flatMap keys).Nodup)

include apart

/-- The first program leaves the modes of every unit at their numbers. -/
theorem initialized_number {u : VrfUnit × Nat} (hu : u ∈ units) (mode : Mode) (σ : Store K) :
    initialized units σ ((Variable.number mode).key u.2) = mode.value := by
  have agree : ∀ s ∈ units.flatMap (initSettings (K := K)), ∀ t ∈ units.flatMap initSettings,
      s.key = t.key → s.value = t.value := by
    intro s hs t ht same
    obtain ⟨u, hu, mode, rfl⟩ := mem_initSettings.1 hs
    obtain ⟨w, hw, other, rfl⟩ := mem_initSettings.1 ht
    obtain ⟨-, equal⟩ := key_inj apart hu hw (number_mem_owned u.1 mode)
      (number_mem_owned w.1 other) same
    cases equal
    rfl
  exact Setting.perform_key agree (mem_initSettings.2 ⟨u, hu, mode, rfl⟩) σ

/-- Assignments of the second program to one variable have one value. -/
theorem controlSettings_agree {v : Vrf} {s t : Setting K}
    (hs : s ∈ units.flatMap (controlSettings v)) (ht : t ∈ units.flatMap (controlSettings v))
    (same : s.key = t.key) : s.value = t.value := by
  obtain ⟨u, hu, x, hx, rfl | rfl⟩ := mem_controlSettings.1 hs <;>
    obtain ⟨w, hw, y, hy, rfl | rfl⟩ := mem_controlSettings.1 ht
  · rfl
  · have differ := key_ne apart hu hw (unitMode_mem_owned u.1) (ratio_mem_owned hy) nofun
    exact absurd same differ
  · have differ := key_ne apart hu hw (ratio_mem_owned hx) (unitMode_mem_owned w.1) nofun
    exact absurd same differ
  · rfl

/-- The second program leaves a unit with terminals in heating, and its terminals at the ratio. -/
theorem controlled_unit {v : Vrf} {u : VrfUnit × Nat} (hu : u ∈ units) {terminal : String}
    (ht : terminal ∈ u.1.terminals) (σ : Store K) :
    controlled v units σ (Variable.unitMode.key u.2) = 2 ∧
      controlled v units σ ((Variable.ratio terminal).key u.2) = Number.exact v.partLoadRatio := by
  have agree : ∀ s ∈ units.flatMap (controlSettings (K := K) v),
      ∀ t ∈ units.flatMap (controlSettings v), s.key = t.key → s.value = t.value :=
    fun s hs t ht same => controlSettings_agree apart hs ht same
  exact ⟨Setting.perform_key agree (mem_controlSettings.2 ⟨u, hu, terminal, ht, .inl rfl⟩) σ,
    Setting.perform_key agree (mem_controlSettings.2 ⟨u, hu, terminal, ht, .inr rfl⟩) σ⟩

/-- The second program leaves the numbers of the modes alone. -/
theorem controlled_number {v : Vrf} {u : VrfUnit × Nat} (hu : u ∈ units) (mode : Mode)
    (σ : Store K) :
    controlled v units σ ((Variable.number mode).key u.2) = σ ((Variable.number mode).key u.2) := by
  have mine := number_mem_owned u.1 mode
  refine controlled_of_ne (fun w hw terminal ht => ⟨?_, ?_⟩) σ
  · exact key_ne apart hu hw mine (unitMode_mem_owned w.1) nofun
  · exact key_ne apart hu hw mine (ratio_mem_owned ht) nofun

/-- No program changes the mode of a unit without terminals. -/
theorem unchanged_of_idle {v : Vrf} {u : VrfUnit × Nat} (hu : u ∈ units)
    (idle : u.1.terminals = []) (σ : Store K) :
    initialized units σ (Variable.unitMode.key u.2) = σ (Variable.unitMode.key u.2) ∧
      controlled v units σ (Variable.unitMode.key u.2) = σ (Variable.unitMode.key u.2) := by
  have mine := unitMode_mem_owned u.1
  constructor
  · refine initialized_of_ne (fun w hw mode => ?_) σ
    exact key_ne apart hu hw mine (number_mem_owned w.1 mode) nofun
  · refine controlled_of_ne (fun w hw terminal ht => ⟨fun same => ?_, ?_⟩) σ
    · obtain ⟨rfl, -⟩ := key_inj apart hu hw mine (unitMode_mem_owned w.1) same
      rw [idle] at ht
      cases ht
    · exact key_ne apart hu hw mine (ratio_mem_owned ht) nofun

end Apart

variable [LinearOrder K] {calls : String → List K → K} {test : Expression → Store K → Bool}
  {call : Name → Store K → Option (Store K)}

theorem takes_initBody (v : Vrf) (a : Numbering) (σ : Store K) :
    (v.initBody a).Takes (Arithmetic.exact calls test).evaluation.machine call [] σ
      (initialized (v.units.zipIdx a.next) σ) := by
  rw [initBody_eq K]
  refine Setting.takes_settings rfl Set.univ (fun _ _ => trivial) fun s hs τ _ => ?_
  obtain ⟨u, -, mode, rfl⟩ := mem_initSettings.1 hs
  exact yields_number mode τ

theorem takes_controlBody {v : Vrf} {a : Numbering} (finite : v.partLoadRatio.isFinite = true)
    (reads : Number.ReadsBack v.partLoadRatio)
    (apart : ((v.units.zipIdx a.next).flatMap keys).Nodup) {σ : Store K}
    (heating : ∀ u ∈ v.units.zipIdx a.next, σ ((Variable.number .heating).key u.2) = 2) :
    (v.controlBody a).Takes (Arithmetic.exact calls test).evaluation.machine call [] σ
      (controlled v (v.units.zipIdx a.next) σ) := by
  rw [controlBody_eq K]
  -- the lines read the numbers of heating, to which none of them assigns
  refine Setting.takes_settings rfl
    {k | ∀ u ∈ v.units.zipIdx a.next, (Variable.number .heating).key u.2 ≠ k} (fun s hs u hu => ?_)
    fun s hs τ same => ?_
  · have read := number_mem_owned u.1 .heating
    obtain ⟨w, hw, terminal, ht, rfl | rfl⟩ := mem_controlSettings.1 hs
    · have differ := key_ne apart hu hw read (unitMode_mem_owned w.1) nofun
      exact differ
    · have differ := key_ne apart hu hw read (ratio_mem_owned ht) nofun
      exact differ
  · obtain ⟨u, hu, terminal, ht, rfl | rfl⟩ := mem_controlSettings.1 hs
    · have kept : τ ((Variable.number .heating).key u.2) = 2 := by
        rw [same fun other => other u hu rfl, heating u hu]
      rw [← kept]
      exact yields_heating u.2 τ
    · exact Arithmetic.yields_format_exact finite reads

end Programs

/-! ## The measure -/

/-- A program of a script has the lines of the draft that it is made of. -/
theorem build_of_mem_bodies {name : String} {body : Draft} {p : Program}
    (h : .program p ∈ (Script.program name body).bodies) : body.build = .ok p.body := by
  unfold Script.program at h
  cases hn : Name.ofText? name with
  | error fault =>
    rw [hn] at h
    cases h
  | ok n =>
    cases hb : body.build with
    | error fault =>
      rw [hn, hb] at h
      cases h
    | ok c =>
      rw [hn, hb] at h
      cases List.mem_singleton.1 h
      rfl

/-- The programs assign to the numbers of the modes, to the ratio of every terminal and to the
    modes of the units that have terminals, and to nothing else. -/
theorem exists_of_mem_writes {v : Vrf} {a : Numbering} {m : Model}
    (h : (v.script a).run .empty = .ok m) {p : Program} (hp : p ∈ m.programs) {n : Name}
    (hn : n ∈ p.body.writes) :
    ∃ u ∈ v.units.zipIdx a.next, ∃ x ∈ assigned u.1, n.text = x.name u.2 := by
  have listed : .program p ∈ m.objects .program := List.mem_map_of_mem hp
  rw [Script.objects_of_run h (.inl rfl), (outline h).2] at listed
  have bodies := List.mem_of_mem_filter listed
  simp only [unitScript, Script.bodies_append, Script.bodies_require, Script.bodies_global,
    implies_true, Script.bodies_flatMap_of_none, Script.bodies_actuator, Script.bodies_output,
    Script.bodies_manager, List.nil_append, List.append_nil, List.mem_append] at bodies
  obtain ⟨s, hs, target⟩ := Code.mem_writes_iff.1 hn
  rcases bodies with init | control
  · have lines := Draft.statements_of_build (build_of_mem_bodies init)
    rw [initBody_eq ℚ] at lines
    obtain ⟨setting, mem, text⟩ := Setting.exists_of_target lines hs target
    obtain ⟨u, hu, mode, rfl⟩ := mem_initSettings.1 mem
    exact ⟨u, hu, .number mode, number_mem_assigned u.1 mode, text⟩
  · have lines := Draft.statements_of_build (build_of_mem_bodies control)
    rw [controlBody_eq ℚ] at lines
    obtain ⟨setting, mem, text⟩ := Setting.exists_of_target lines hs target
    obtain ⟨u, hu, terminal, ht, rfl | rfl⟩ := mem_controlSettings.1 mem
    · exact ⟨u, hu, .unitMode, (mem_assigned_of_terminal ht).1, text⟩
    · exact ⟨u, hu, .ratio terminal, (mem_assigned_of_terminal ht).2, text⟩

/-- What is left in the variables of a unit with its number, after the first program and some
    rounds of the second one. -/
structure Held {K : Type} [Field K] (v : Vrf) (rounds : Nat) (σ τ : Store K)
    (u : VrfUnit × Nat) : Prop where
  numbers : ∀ mode : Mode, τ ((Variable.number mode).key u.2) = mode.value
  heating : 0 < rounds → u.1.terminals ≠ [] → τ (Variable.unitMode.key u.2) = 2
  ratio : 0 < rounds → ∀ terminal ∈ u.1.terminals,
    τ ((Variable.ratio terminal).key u.2) = Number.exact v.partLoadRatio
  idle : u.1.terminals = [] → τ (Variable.unitMode.key u.2) = σ (Variable.unitMode.key u.2)

/-- Every round of the second program leaves the units as they are to be. -/
theorem held_iterate {K : Type} [Field K] {v : Vrf} {units : List (VrfUnit × Nat)}
    (apart : (units.flatMap keys).Nodup) (rounds : Nat) (σ : Store K) :
    (∀ u ∈ units, Held v rounds σ ((controlled v units)^[rounds] (initialized units σ)) u) ∧
      ∀ k, (∀ u ∈ units, ∀ x ∈ assigned u.1, k ≠ x.key u.2) →
        (controlled v units)^[rounds] (initialized units σ) k = σ k := by
  induction rounds with
  | zero =>
    refine ⟨fun u hu => ?_, fun k other => ?_⟩
    · exact {
        numbers := fun mode => initialized_number apart hu mode σ
        heating := nofun
        ratio := nofun
        idle := fun idle => (unchanged_of_idle (v := v) apart hu idle σ).1 }
    · exact initialized_of_ne (fun u hu mode => other u hu _ (number_mem_assigned u.1 mode)) σ
  | succ rounds ih =>
    obtain ⟨held, frame⟩ := ih
    simp only [Function.iterate_succ_apply']
    refine ⟨fun u hu => ?_, fun k other => ?_⟩
    · exact {
        numbers := fun mode =>
          (controlled_number apart hu mode _).trans ((held u hu).numbers mode)
        heating := fun _ some => by
          obtain ⟨terminal, ht⟩ := List.exists_mem_of_ne_nil _ some
          exact (controlled_unit apart hu ht _).1
        ratio := fun _ terminal ht => (controlled_unit apart hu ht _).2
        idle := fun idle =>
          (unchanged_of_idle apart hu idle _).2.trans ((held u hu).idle idle) }
    · have unassigned : ∀ u ∈ units, ∀ terminal ∈ u.1.terminals,
          k ≠ Variable.unitMode.key u.2 ∧ k ≠ (Variable.ratio terminal).key u.2 :=
        fun u hu terminal ht => ⟨other u hu _ (mem_assigned_of_terminal ht).1,
          other u hu _ (mem_assigned_of_terminal ht).2⟩
      rw [controlled_of_ne unassigned]
      exact frame k other

/-- What the measure does, whatever units and terminals it is given and whatever they are called.
    Each unit and each terminal has an actuator of its own.  After the first program and any
    number of rounds of the second one the modes have their numbers; after one round or more every
    terminal runs at the ratio, and every unit with terminals is heating.  Nothing else is ever
    assigned to, the mode of a unit without terminals included. -/
theorem runPrograms_vrf {K : Type} [Field K] [LinearOrder K] {v : Vrf} {a next : Numbering}
    {m : Model} (built : (Measure.vrfModeOverride v).build a = .ok (m, next))
    (reads : Number.ReadsBack v.partLoadRatio) (calls : String → List K → K)
    (test : Expression → Store K → Bool) (depth rounds : Nat) (σ : Store K) :
    (m.actuators.map fun x => (x.name.text, x.component, x.componentType, x.control)) =
        (v.units.zipIdx a.next).flatMap actuators ∧
      ((v.units.zipIdx a.next).flatMap keys).Nodup ∧
      (∀ p ∈ m.programs, ∀ n ∈ p.body.writes,
        ∃ u ∈ v.units.zipIdx a.next, ∃ x ∈ assigned u.1, n.text = x.name u.2) ∧
      ∃ τ, m.runPrograms (Arithmetic.exact calls test).evaluation.machine (depth + 1)
          (v.initProgram :: List.replicate rounds v.program) σ = some τ ∧
        (∀ u ∈ v.units.zipIdx a.next, Held v rounds σ τ u) ∧
        ∀ k, (∀ u ∈ v.units.zipIdx a.next, ∀ x ∈ assigned u.1, k ≠ x.key u.2) → τ k = σ k := by
  have ran : (v.script a).run .empty = .ok m := (build_eq_ok_iff.1 built).1
  have apart := nodup_keys ran
  obtain ⟨finite, shape⟩ := outline ran
  have initPart : Script.program v.initProgram (v.initBody a) ⊆ v.script a :=
    fun x hx => by simp [shape, hx]
  have controlPart : Script.program v.program (v.controlBody a) ⊆ v.script a :=
    fun x hx => by simp [shape, hx]
  obtain ⟨p, -, -, initBuilt, runsInit⟩ :=
    Script.runProgram_of_part ran Script.isProgram_program initPart
  obtain ⟨q, -, -, controlBuilt, runsControl⟩ :=
    Script.runProgram_of_part ran Script.isProgram_program controlPart
  have first : m.runProgram (Arithmetic.exact calls test).evaluation.machine (depth + 1)
      v.initProgram σ = some (initialized (v.units.zipIdx a.next) σ) := by
    rw [runsInit]
    exact (takes_initBody v a σ).run initBuilt
  -- a round reads the numbers of heating and leaves them alone
  have round (σ : Store K)
      (heating : ∀ u ∈ v.units.zipIdx a.next, σ ((Variable.number .heating).key u.2) = 2) :
      m.runProgram (Arithmetic.exact calls test).evaluation.machine (depth + 1) v.program σ =
          some (controlled v (v.units.zipIdx a.next) σ) ∧
        ∀ u ∈ v.units.zipIdx a.next,
          controlled v (v.units.zipIdx a.next) σ ((Variable.number .heating).key u.2) = 2 := by
    rw [runsControl]
    refine ⟨(takes_controlBody finite reads apart heating).run controlBuilt, fun u hu => ?_⟩
    rw [controlled_number apart hu, heating u hu]
  have rest := runPrograms_replicate round rounds
    fun u hu => initialized_number apart hu .heating σ
  obtain ⟨held, frame⟩ := held_iterate (v := v) apart rounds σ
  refine ⟨actuators_eq ran, apart, fun p hp n hn => exists_of_mem_writes ran hp hn, _, ?_, held,
    frame⟩
  rw [runPrograms, List.foldlM_cons, first]
  exact rest

/-- A unit with a terminal, and one without. -/
def roofs : Vrf where
  units := [⟨"Roof", ["TU 1"]⟩, ⟨"Yard", []⟩]
  partLoadRatio := 0.75
  initProgram := "Init"
  initManager := "I"
  program := "Control"
  manager := "M"

/-- Two rounds leave the terminal at three quarters and the bare unit as it was. -/
theorem runPrograms_vrf_roofs : ∃ m next τ,
    (Measure.vrfModeOverride roofs).build .first = .ok (m, next) ∧
      Number.ReadsBack roofs.partLoadRatio ∧
      m.runPrograms (Arithmetic.exact (fun _ _ => (0 : ℚ)) fun _ _ => false).evaluation.machine 1
        ["Init", "Control", "Control"] (fun _ => 7) = some τ ∧
      τ "TU_1_VRF1" = 3 / 4 ∧ τ "VRF_ACTUATOR_ONOFF1" = 2 ∧ τ "VRF_ACTUATOR_ONOFF2" = 7 := by
  have builds : ((Measure.vrfModeOverride roofs).build .first).isOk = true := by decide +kernel
  obtain ⟨⟨m, next⟩, built⟩ := exists_of_isOk builds
  have reads : Number.ReadsBack roofs.partLoadRatio := by decide +kernel
  obtain ⟨-, -, -, τ, ran, held, -⟩ := runPrograms_vrf built reads (fun _ _ => (0 : ℚ))
    (fun _ _ => false) 0 2 fun _ => 7
  have listed : roofs.units.zipIdx Numbering.first.next =
      [(⟨"Roof", ["TU 1"]⟩, 1), (⟨"Yard", []⟩, 2)] := rfl
  rw [listed, List.forall_mem_cons, List.forall_mem_singleton] at held
  obtain ⟨roof, yard⟩ := held
  have ratio := roof.ratio (by decide) "TU 1" (by decide)
  have value : Number.exact roofs.partLoadRatio = 3 / 4 := by decide +kernel
  rw [value, Rat.cast_id] at ratio
  have ratioKey : (Variable.ratio "TU 1").key 1 = "TU_1_VRF1" := by decide +kernel
  have roofKey : Variable.unitMode.key 1 = "VRF_ACTUATOR_ONOFF1" := by decide +kernel
  have yardKey : Variable.unitMode.key 2 = "VRF_ACTUATOR_ONOFF2" := by decide +kernel
  rw [← ratioKey, ← roofKey, ← yardKey]
  exact ⟨m, next, τ, built, reads, ran, ratio, roof.heating (by decide) (by decide), yard.idle rfl⟩

end BuildingControl.Measure.Vrf
