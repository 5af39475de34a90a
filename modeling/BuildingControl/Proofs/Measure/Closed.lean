/-
  BuildingControl.Proofs.Measure.Closed

  The references of the measures.  For each measure: what a script without faults
  consists of, what its names stand for, and that every body stays within the
  scope of what the measure declares and of its local names.  Averages, package
  sizes and comfort have local names; the others have none.  Capacity curves are
  in `Proofs/Measure/Curve`.
-/
import BuildingControl.Measure.Basic
import BuildingControl.Proofs.Measure.Reference

namespace BuildingControl.Measure

open Erl Model

namespace Condenser

/-- A script without faults has a threshold and one part for each loop. -/
theorem outline {c : Condenser} {a : Numbering} {m : Model}
    (run : (c.script a).run .empty = .ok m) :
    ∃ threshold, c.thresholdCelsius = .ok threshold ∧ c.script a =
      Script.sensor outdoor "Environment" "Site Outdoor Air Drybulb Temperature" ++
      (((c.loops.zipIdx a.next).flatMap fun l => loopScript l.1 l.2) ++
      (Script.program c.program (c.body threshold a) ++
      Script.manager c.manager .insideHVACSystemIterationLoop c.program)) := by
  obtain ⟨ds, h, -⟩ := Script.run_eq_ok_iff.1 run
  unfold script at h ⊢
  split at h
  · cases ds <;> cases h
  · next some =>
    rw [if_neg some]
    cases ht : c.thresholdCelsius with
    | error fault =>
      rw [ht] at h
      cases ds <;> cases h
    | ok threshold =>
      rw [ht] at h
      refine ⟨threshold, rfl, ?_⟩
      simp only [List.append_assoc] at h ⊢
      obtain ⟨_, _, -, later, -⟩ := allOk_append_iff.1 h
      obtain ⟨_, _, first, -, -⟩ := allOk_append_iff.1 later
      rw [Script.forEach_eq first]

/-- Numbers and `Null` read nothing. -/
theorem reads_constant {σ : Scope} {value : String}
    (h : value = "0.0" ∨ value = "1.0" ∨ value = "Null") :
    ∀ w ∈ words value.toList, isReserved w = false → σ.reads w := by
  intro w hw reserved
  rcases h with rfl | rfl | rfl
  · have number : Number.IsNumeral "0.0".toList := .of_all (by decide) rfl (by decide)
    rw [words_numeral number] at hw
    cases hw
  · have number : Number.IsNumeral "1.0".toList := .of_all (by decide) rfl (by decide)
    rw [words_numeral number] at hw
    cases hw
  · rw [words_word_end (by decide), List.mem_singleton] at hw
    rw [hw] at reserved
    cases reserved

section Run

variable {c : Condenser} {a : Numbering} {m : Model} (h : (c.script a).run .empty = .ok m)

include h

theorem declares_outdoor : m.Declares outdoor .sensor := by
  obtain ⟨threshold, -, shape⟩ := outline h
  have part : Script.sensor outdoor "Environment" "Site Outdoor Air Drybulb Temperature" ⊆
      c.script a := fun x hx => by simp [shape, hx]
  exact Script.declares_sensor h part

theorem declares_program : m.Declares c.program .program := by
  obtain ⟨threshold, -, shape⟩ := outline h
  have part : Script.program c.program (c.body threshold a) ⊆ c.script a :=
    fun x hx => by simp [shape, hx]
  exact Script.declares_program h Script.isProgram_program part

theorem loopScript_subset {l : CondenserLoop × Nat} (hl : l ∈ c.loops.zipIdx a.next) :
    loopScript l.1 l.2 ⊆ c.script a := by
  obtain ⟨threshold, -, shape⟩ := outline h
  intro x hx
  rw [shape]
  exact List.mem_append_right _ (List.mem_append_left _ (List.mem_flatMap.2 ⟨l, hl, hx⟩))

theorem declares_report {l : CondenserLoop × Nat} (hl : l ∈ c.loops.zipIdx a.next) :
    m.Declares (reportName l.2) .global := by
  have part : Script.global (reportName l.2) ⊆ c.script a :=
    fun x hx => loopScript_subset h hl (by simp [loopScript, hx])
  exact Script.declares_global h part

theorem within_loopBody {threshold : Float} {l : CondenserLoop × Nat}
    (hl : l ∈ c.loops.zipIdx a.next) :
    OnResults (Statement.Within (m.scope [])) (loopBody threshold l.1 l.2) := by
  have loopPart : Script.actuator (loopActuator l.1 l.2) l.1.name .plantLoop "On/Off Supervisory" ⊆
      c.script a := fun x hx => loopScript_subset h hl (by simp [loopScript, hx])
  have pumpPart : Script.actuator (pumpActuator l.1 l.2) l.1.pump (.pump l.1.pumpSpeed)
      "Pump Mass Flow Rate" ⊆ c.script a :=
    fun x hx => loopScript_subset h hl (by simp [loopScript, hx])
  have loop := (Script.declares_actuator h loopPart).writes rfl []
  have pump := (Script.declares_actuator h pumpPart).writes rfl []
  have report := (declares_report h hl).writes rfl []
  simp only [loopBody, onResults_append]
  refine ⟨⟨⟨⟨⟨⟨⟨⟨?_, ?_⟩, ?_⟩, ?_⟩, ?_⟩, ?_⟩, ?_⟩, ?_⟩, ?_⟩
  · exact Scope.within_ifCompare ((declares_outdoor h).reads rfl _)
  · exact Scope.within_set (reads_constant (.inl rfl)) loop
  · exact Scope.within_set (reads_constant (.inl rfl)) pump
  · exact Scope.within_set (reads_constant (.inr (.inl rfl))) report
  · exact Scope.within_push (Scope.within_of_no_names (.inl rfl))
  · exact Scope.within_set (reads_constant (.inr (.inr rfl))) loop
  · exact Scope.within_set (reads_constant (.inr (.inr rfl))) pump
  · exact Scope.within_set (reads_constant (.inl rfl)) report
  · exact Scope.within_push (Scope.within_of_no_names (.inr (.inl rfl)))

theorem closed : m.Closed [] := by
  obtain ⟨threshold, -, shape⟩ := outline h
  have body : OnResults (Statement.Within (m.scope [])) (c.body threshold a) :=
    onResults_flatMap.2 fun l hl => within_loopBody h hl
  refine Script.closed_of_run h ?_ nofun
  rw [shape]
  simp only [onResults_append, onResults_flatMap]
  refine ⟨Script.leads_sensor, fun l hl => ?_,
    Script.leads_program Script.isProgram_program fun code hc => ?_,
    Script.leads_manager (declares_program h).found⟩
  · simp only [loopScript, onResults_append]
    exact ⟨⟨⟨⟨Script.leads_global, Script.leads_actuator⟩, Script.leads_actuator⟩,
      Script.leads_output (declares_report h hl).found rfl⟩, Script.leads_request⟩
  · exact closedBody_of_within (Scope.within_of_build hc body) nofun (List.nil_subset _)

end Run

end Condenser

namespace Vrf

/-- A script without faults has one part for each outdoor unit. -/
theorem outline {v : Vrf} {a : Numbering} {m : Model} (run : (v.script a).run .empty = .ok m) :
    v.partLoadRatio.isFinite = true ∧ v.script a = Script.require v.checkRatio ++
      (((v.units.zipIdx a.next).flatMap fun u => unitScript u.1 u.2) ++
      (Script.program v.initProgram (v.initBody a) ++
      (Script.program v.program (v.controlBody a) ++
      (Script.manager v.initManager .beginNewEnvironment v.initProgram ++
      Script.manager v.manager .insideHVACSystemIterationLoop v.program)))) := by
  obtain ⟨ds, h, -⟩ := Script.run_eq_ok_iff.1 run
  unfold script at h ⊢
  split at h
  · cases ds <;> cases h
  split at h
  · cases ds <;> cases h
  · next some terminals =>
    rw [if_neg some, if_neg terminals]
    simp only [List.append_assoc] at h ⊢
    obtain ⟨_, _, required, later, -⟩ := allOk_append_iff.1 h
    obtain ⟨_, _, first, -, -⟩ := allOk_append_iff.1 later
    refine ⟨?_, by rw [Script.forEach_eq first]⟩
    obtain ⟨u, checked⟩ := Script.exists_of_allOk_require required
    by_contra infinite
    simp [checkRatio, Number.requireFinite, infinite] at checked

section Run

variable {v : Vrf} {a : Numbering} {m : Model} (h : (v.script a).run .empty = .ok m)

include h

theorem unitScript_subset {u : VrfUnit × Nat} (hu : u ∈ v.units.zipIdx a.next) :
    unitScript u.1 u.2 ⊆ v.script a := by
  intro x hx
  rw [(outline h).2]
  exact List.mem_append_right _ (List.mem_append_left _ (List.mem_flatMap.2 ⟨u, hu, hx⟩))

theorem declares_mode {u : VrfUnit × Nat} (hu : u ∈ v.units.zipIdx a.next) (mode : Mode) :
    m.Declares (mode.global u.2) .global := by
  have every : mode ∈ Mode.all := by cases mode <;> decide
  have part : Script.global (mode.global u.2) ⊆ v.script a := by
    intro x hx
    have mem : x ∈ Mode.all.flatMap fun mode => Script.global (mode.global u.2) :=
      List.mem_flatMap.2 ⟨mode, every, hx⟩
    exact unitScript_subset h hu (by simp only [unitScript, List.mem_append, mem, true_or])
  exact Script.declares_global h part

theorem declares_modeActuator {u : VrfUnit × Nat} (hu : u ∈ v.units.zipIdx a.next) :
    m.Declares (modeActuator u.2) .actuator := by
  have part : Script.actuator (modeActuator u.2) u.1.name .vrfHeatPump "Operating Mode" ⊆
      v.script a := fun x hx =>
    unitScript_subset h hu (by simp only [unitScript, List.mem_append, hx, true_or, or_true])
  exact Script.declares_actuator h part

theorem declares_ratioActuator {u : VrfUnit × Nat} (hu : u ∈ v.units.zipIdx a.next)
    {terminal : String} (ht : terminal ∈ u.1.terminals) :
    m.Declares (ratioActuator terminal u.2) .actuator := by
  have part : Script.actuator (ratioActuator terminal u.2) terminal .vrfTerminal
      "Part Load Ratio" ⊆ v.script a := by
    intro x hx
    have mem : x ∈ u.1.terminals.flatMap fun terminal =>
        Script.actuator (ratioActuator terminal u.2) terminal .vrfTerminal "Part Load Ratio" :=
      List.mem_flatMap.2 ⟨terminal, ht, hx⟩
    exact unitScript_subset h hu
      (by simp only [unitScript, List.mem_append, mem, true_or, or_true])
  exact Script.declares_actuator h part

theorem declares_initProgram : m.Declares v.initProgram .program := by
  have part : Script.program v.initProgram (v.initBody a) ⊆ v.script a :=
    fun x hx => by simp [(outline h).2, hx]
  exact Script.declares_program h Script.isProgram_program part

theorem declares_program : m.Declares v.program .program := by
  have part : Script.program v.program (v.controlBody a) ⊆ v.script a :=
    fun x hx => by simp [(outline h).2, hx]
  exact Script.declares_program h Script.isProgram_program part

theorem within_initBody : OnResults (Statement.Within (m.scope [])) (v.initBody a) := by
  refine onResults_flatMap.2 fun u hu => onResults_flatMap.2 fun mode _ => ?_
  refine Scope.within_set (fun w hw _ => ?_) ((declares_mode h hu mode).writes rfl _)
  have number : Number.IsNumeral mode.number.toList := by
    cases mode <;> exact .of_all (by decide) rfl (by decide)
  rw [words_numeral number] at hw
  cases hw

theorem within_controlBody : OnResults (Statement.Within (m.scope [])) (v.controlBody a) := by
  refine onResults_flatMap.2 fun u hu => onResults_flatMap.2 fun terminal ht => ?_
  refine onResults_append.2 ⟨?_, Scope.within_set (fun w hw _ => ?_)
    ((declares_ratioActuator h hu ht).writes rfl _)⟩
  · exact Scope.within_set ((declares_mode h hu .heating).reads_words rfl _)
      ((declares_modeActuator h hu).writes rfl _)
  · rw [words_format (outline h).1] at hw
    cases hw

theorem closed : m.Closed [] := by
  refine Script.closed_of_run h ?_ nofun
  rw [(outline h).2]
  simp only [onResults_append, onResults_flatMap]
  refine ⟨Script.onResults_require, fun u hu => ?_,
    Script.leads_program Script.isProgram_program fun code hc => ?_,
    Script.leads_program Script.isProgram_program fun code hc => ?_,
    Script.leads_manager (declares_initProgram h).found,
    Script.leads_manager (declares_program h).found⟩
  · simp only [unitScript, onResults_append, onResults_flatMap]
    exact ⟨⟨⟨fun mode _ => Script.leads_global, Script.leads_actuator⟩,
      fun terminal _ => Script.leads_actuator⟩,
      Script.leads_output (declares_modeActuator h hu).found rfl⟩
  · exact closedBody_of_within (Scope.within_of_build hc (within_initBody h)) nofun
      (List.nil_subset _)
  · exact closedBody_of_within (Scope.within_of_build hc (within_controlBody h)) nofun
      (List.nil_subset _)

end Run

end Vrf

namespace Thermochromic

-- the text of a handle matters only through the name it is, so it is never computed here
attribute [local irreducible] sanitize

/-- Each construction is declared under its own text, here or where it was seen before. -/
theorem exists_index {constructions : List String} {seen : List (String × Name)}
    {ds : List Declaration} (h : AllOk (handles seen constructions) ds) :
    ∀ c ∈ constructions, ∃ n : Name, n.text = sanitize c ∧
      (.construction ⟨n, c⟩ ∈ ds ∨ ∃ x ∈ seen, x.1 = c) := by
  induction constructions generalizing seen ds with
  | nil => simp
  | cons c rest ih =>
    rw [handles_cons] at h
    cases hn : Name.ofText? (sanitize c) with
    | error fault =>
      rw [hn] at h
      cases ds <;> cases h
    | ok n =>
      simp only [hn] at h
      have text := Name.ofText?_eq_ok_iff.1 hn
      obtain ⟨here, later, hhere, hlater, rfl⟩ := allOk_append_iff.1 h
      -- a handle that was seen before belongs to the same text, or it would be refused
      have handled : .construction ⟨n, c⟩ ∈ here ∨ ∃ x ∈ seen, x.1 = c := by
        split at hhere
        · obtain ⟨d, hd, rfl⟩ := allOk_singleton_iff.1 hhere
          cases hd
          exact .inl List.mem_cons_self
        · next other k found =>
          split at hhere
          · next same => exact .inr ⟨(other, k), List.mem_of_find?_eq_some found, by simpa using same⟩
          · obtain ⟨d, hd, -⟩ := allOk_singleton_iff.1 hhere
            cases hd
      intro d hd
      rcases List.mem_cons.1 hd with rfl | hd
      · exact ⟨n, text, handled.imp_left (List.mem_append_left later)⟩
      · obtain ⟨k, hk, found | ⟨x, hx, same⟩⟩ := ih hlater d hd
        · exact ⟨k, hk, .inl (List.mem_append_right here found)⟩
        rcases List.mem_append.1 hx with hx | hx
        · exact ⟨k, hk, .inr ⟨x, hx, same⟩⟩
        · -- it is `c` once more, declared wherever that was
          obtain rfl : c = d := by rw [← same, List.mem_singleton.1 hx]
          exact ⟨n, text, handled.imp_left (List.mem_append_left later)⟩

theorem leads_handles {m : Model} {locals : List String} (seen : List (String × Name))
    (constructions : List String) :
    OnResults (Script.Leads m locals) (handles seen constructions) := by
  induction constructions generalizing seen with
  | nil => exact onResults_nil
  | cons c rest ih =>
    rw [handles_cons]
    cases Name.ofText? (sanitize c) with
    | error fault => exact onResults_singleton.2 nofun
    | ok n =>
      refine onResults_append.2 ⟨?_, ih _⟩
      split
      · refine onResults_singleton.2 fun x hx => ?_
        cases hx
        trivial
      · split
        · exact onResults_nil
        · exact onResults_singleton.2 nofun

/-- The program with the table. -/
theorem isProgram_table {w : Thermochromic} :
    Script.IsProgram (Script.one (do return .program ⟨← Name.ofText? w.programName, ← w.table.build⟩))
      w.programName w.table.build := by
  intro ds all
  rw [Script.allOk_one_iff] at all
  simp only [bind_eq_ok_iff, Name.ofText?_eq_ok_iff] at all
  obtain ⟨x, ⟨n, hn, c, hc, hx⟩, rfl⟩ := all
  cases hx
  exact ⟨n, c, hn, hc, rfl⟩

section Run

variable {w : Thermochromic} {m : Model} (h : w.script.run .empty = .ok m)

include h

theorem declares_sensor : m.Declares w.sensorName .sensor := by
  have part : Script.sensor w.sensorName w.window "Surface Outside Face Temperature" ⊆ w.script :=
    fun x hx => by simp [script, hx]
  exact Script.declares_sensor h part

theorem declares_actuator : m.Declares w.actuatorName .actuator := by
  have part : Script.actuator w.actuatorName w.window .surface "Construction State" ⊆ w.script :=
    fun x hx => by simp [script, hx]
  exact Script.declares_actuator h part

theorem declares_program : m.Declares w.programName .program := by
  have part : Script.one (do return .program ⟨← Name.ofText? w.programName, ← w.table.build⟩) ⊆
      w.script := fun x hx => by simp only [script, List.mem_append, hx, true_or, or_true]
  exact Script.declares_program h isProgram_table part

/-- Each construction in use is an object of the script, under its own text. -/
theorem exists_index_of_run {c : String} (hc : c ∈ w.constructions) :
    ∃ n : Name, n.text = sanitize c ∧ .ok (.construction ⟨n, c⟩) ∈ w.script := by
  have part : handles [] w.constructions ⊆ w.script := fun x hx => by simp [script, hx]
  obtain ⟨ds, all, within⟩ := Script.exists_of_part h part
  obtain ⟨n, text, declared | ⟨x, hx, -⟩⟩ := exists_index all c hc
  · exact ⟨n, text, within _ declared⟩
  · cases hx

theorem declares_handle {c : String} (hc : c ∈ w.constructions) :
    m.Declares (sanitize c) .constructionIndex := by
  obtain ⟨n, text, declared⟩ := exists_index_of_run h hc
  have found := Script.lookup?_of_mem h declared (e := (n, .constructionIndex)) rfl
  exact text ▸ ⟨n.isWord, found⟩

theorem within_table {code : Code} (hc : w.table.build = .ok code) :
    ∀ s ∈ code.statements, s.Within (m.scope []) := by
  have actuator := (declares_actuator h).writes rfl []
  refine Scope.within_table hc ((declares_sensor h).reads rfl _) (fun r hr _ => ?_) fun d hd => ?_
  · obtain ⟨s, hs, rfl⟩ := List.mem_map.1 hr
    have used := construction_mem hs
    have reads := (declares_handle h used).reads_words rfl []
    exact ⟨actuator, handleOf_eq used ▸ reads⟩
  · cases hd
    have used := defaultConstruction_mem w
    have reads := (declares_handle h used).reads_words rfl []
    exact ⟨actuator, handleOf_eq used ▸ reads⟩

theorem closed : m.Closed [] := by
  refine Script.closed_of_run h ?_ nofun
  simp only [script, onResults_append]
  exact ⟨⟨⟨⟨⟨Script.onResults_require, Script.leads_sensor⟩, Script.leads_actuator⟩,
    leads_handles _ _⟩, Script.leads_program isProgram_table fun code hc =>
      closedBody_of_within (within_table h hc) nofun (List.nil_subset _)⟩,
    Script.leads_manager (declares_program h).found⟩

end Run

end Thermochromic

namespace ZoneAverage

/-- The names that the program assigns to and does not declare. -/
def locals : List String := ["SumNumerator", "SumDenominator"]

theorem words_sum {terms : List String} {w : String} (h : w ∈ words (sum terms).toList) :
    ∃ t ∈ terms, w ∈ words t.toList := by
  have parted (t rest : List Char) :
      words (t ++ [' ', '+', ' '] ++ rest) = words t ++ words rest := by
    have front : words (t ++ ' ' :: ('+' :: ' ' :: rest)) = words t ++ words ('+' :: ' ' :: rest) :=
      words_break (by decide) _ _
    have marks : words ('+' :: ' ' :: rest) = words rest := by
      rw [words_mark (by decide), words_mark (by decide)]
    rw [List.append_assoc, ← marks]
    exact front
  rw [sum, String.toList_intercalate] at h
  induction terms with
  | nil => cases h
  | cons t terms ih =>
    cases terms with
    | nil =>
      rw [List.map_singleton, List.intercalate_singleton] at h
      exact ⟨t, List.mem_cons_self, h⟩
    | cons u terms =>
      rw [List.map_cons, List.map_cons, List.intercalate_cons_cons] at h
      have both : w ∈ words t.toList ++ words ([' ', '+', ' '].intercalate
          (List.map String.toList (u :: terms))) := parted _ _ ▸ h
      rcases List.mem_append.1 both with here | later
      · exact ⟨t, List.mem_cons_self, here⟩
      · obtain ⟨v, hv, hw⟩ := ih later
        exact ⟨v, List.mem_cons_of_mem t hv, hw⟩

theorem isWord_temperatureName (n : Nat) : isWord (temperatureName n).toList = true :=
  isWord_numbered (by decide) n

theorem isWord_volumeName (n : Nat) : isWord (volumeName n).toList = true := by
  rw [volumeName, String.toList_append]
  exact isWord_append (isWord_numbered (by decide) n) (by decide)

theorem words_weighted (n : Nat) :
    words (weighted n).toList = [temperatureName n, volumeName n] := by
  have parts : (weighted n).toList =
      (temperatureName n).toList ++ '*' :: (volumeName n).toList := by
    rw [weighted, String.toList_append, String.toList_append, List.append_assoc]
    rfl
  rw [parts, words_word_mark (isWord_temperatureName n) (by decide),
    words_word_end (isWord_volumeName n)]

/-- Looking at the lines before the name makes a difference to faults only. -/
theorem isProgram_programDeclaration {z : ZoneAverage} {numbers : List Nat} :
    Script.IsProgram (Script.one (z.programDeclaration numbers)) z.program
      (z.body numbers).build := by
  intro ds all
  rw [Script.allOk_one_iff, programDeclaration] at all
  simp only [bind_eq_ok_iff, Name.ofText?_eq_ok_iff] at all
  obtain ⟨x, ⟨c, hc, n, hn, hx⟩, rfl⟩ := all
  cases hx
  exact ⟨n, c, hn, hc, rfl⟩

/-- A script without faults has one part for each zone, of which there is at least one. -/
theorem outline {z : ZoneAverage} {a : Numbering} {m : Model}
    (run : (z.script a).run .empty = .ok m) :
    z.zones ≠ [] ∧ z.script a = ((z.zones.zipIdx a.next).flatMap fun u => zoneScript u.1 u.2) ++
      (Script.global z.average ++
      (Script.one (z.programDeclaration (List.range' a.next z.zones.length)) ++
      (Script.manager z.manager .endOfZoneTimestepBeforeZoneReporting z.program ++
      (Script.output z.outputName z.average .zoneTimestep (some "C") ++
      Script.request Script.everyKey z.outputName .timestep)))) := by
  obtain ⟨ds, h, -⟩ := Script.run_eq_ok_iff.1 run
  unfold script at h ⊢
  split at h
  · cases ds <;> cases h
  · next some =>
    refine ⟨by simpa using some, ?_⟩
    rw [if_neg some]
    simp only [List.append_assoc] at h ⊢
    obtain ⟨_, _, first, -, -⟩ := allOk_append_iff.1 h
    rw [Script.forEach_eq first]

section Run

variable {z : ZoneAverage} {a : Numbering} {m : Model} (h : (z.script a).run .empty = .ok m)

include h

theorem zoneScript_subset {n : Nat} (hn : n ∈ List.range' a.next z.zones.length) :
    ∃ zone, zoneScript zone n ⊆ z.script a := by
  rw [← List.zipIdx_map_snd] at hn
  obtain ⟨⟨zone, k⟩, hu, rfl⟩ := List.mem_map.1 hn
  refine ⟨zone, fun x hx => ?_⟩
  rw [(outline h).2]
  exact List.mem_append_left _ (List.mem_flatMap.2 ⟨(zone, k), hu, hx⟩)

theorem declares_temperature {n : Nat} (hn : n ∈ List.range' a.next z.zones.length) :
    m.Declares (temperatureName n) .sensor := by
  obtain ⟨zone, sub⟩ := zoneScript_subset h hn
  exact Script.declares_sensor h (List.Subset.trans (List.subset_append_left _ _) sub)

theorem declares_volume {n : Nat} (hn : n ∈ List.range' a.next z.zones.length) :
    m.Declares (volumeName n) .internal := by
  obtain ⟨zone, sub⟩ := zoneScript_subset h hn
  exact Script.declares_internal h (List.Subset.trans (List.subset_append_right _ _) sub)

theorem declares_average : m.Declares z.average .global := by
  exact Script.declares_global h fun x hx => by simp [(outline h).2, hx]

theorem within_body : OnResults (Statement.Within (m.scope locals))
    (z.body (List.range' a.next z.zones.length)) := by
  rw [ZoneAverage.body, onResults_append, onResults_append]
  refine ⟨⟨Scope.within_set (fun w hw reserved => ?_) (.inl (by decide)),
    Scope.within_set (fun w hw reserved => ?_) (.inl (by decide))⟩,
    Scope.within_set (fun w hw _ => .inr ?_) ((declares_average h).writes rfl _)⟩
  · obtain ⟨t, ht, hw⟩ := words_sum hw
    obtain ⟨n, hn, rfl⟩ := List.mem_map.1 ht
    rw [words_weighted, List.mem_cons, List.mem_singleton] at hw
    rcases hw with rfl | rfl
    · exact (declares_temperature h hn).reads rfl _
    · exact (declares_volume h hn).reads rfl _
  · obtain ⟨t, ht, hw⟩ := words_sum hw
    obtain ⟨n, hn, rfl⟩ := List.mem_map.1 ht
    exact (declares_volume h hn).reads_words rfl _ w hw reserved
  · have both : words "SumNumerator / SumDenominator".toList = locals := by decide
    rwa [both] at hw

theorem programDeclaration_subset :
    Script.one (z.programDeclaration (List.range' a.next z.zones.length)) ⊆ z.script a := by
  exact fun x hx => by simp [(outline h).2, hx]

theorem declares_program : m.Declares z.program .program :=
  Script.declares_program h isProgram_programDeclaration (programDeclaration_subset h)

omit h in
/-- The program assigns to both local names. -/
theorem assigned {c : Code} {numbers : List Nat} (hc : (z.body numbers).build = .ok c) :
    ∀ l ∈ locals, ∃ s ∈ c.statements, ∃ n, s.target? = some n ∧ n.text = l := by
  intro l hl
  simp only [locals, List.mem_cons, List.not_mem_nil, or_false] at hl
  rcases hl with rfl | rfl
  · exact Scope.exists_target_of_build hc (by simp [ZoneAverage.body])
  · exact Scope.exists_target_of_build hc (by simp [ZoneAverage.body])

theorem closed : m.Closed locals := by
  have closedBody {c : Code} (hc : (z.body (List.range' a.next z.zones.length)).build = .ok c) :
      m.ClosedBody locals c :=
    closedBody_of_within (Scope.within_of_build hc (within_body h)) (assigned hc)
      (List.Subset.refl _)
  refine Script.closed_of_run h ?_ fun l hl => ?_
  · rw [(outline h).2]
    simp only [onResults_append, onResults_flatMap]
    refine ⟨fun u _ => onResults_append.2 ⟨Script.leads_sensor, Script.leads_internal⟩,
      Script.leads_global, Script.leads_program isProgram_programDeclaration fun c => closedBody,
      Script.leads_manager (declares_program h).found,
      Script.leads_output (declares_average h).found rfl, Script.leads_request⟩
  · obtain ⟨p, hp, hc⟩ := Script.exists_program_of_part h isProgram_programDeclaration
      (programDeclaration_subset h)
    obtain ⟨s, hs, n, target, named⟩ := assigned hc l hl
    exact ⟨p, List.mem_append_left _ hp, n, Code.mem_writes_iff.2 ⟨s, hs, target⟩, named⟩

theorem clear : OnResults (Script.ClearOf locals [z.program]) (z.script a) := by
  rw [(outline h).2]
  simp only [onResults_append, onResults_flatMap]
  refine ⟨fun u _ => onResults_append.2 ⟨Script.clear_sensor ?_, Script.clear_internal ?_⟩,
    Script.clear_global,
    Script.clear_program isProgram_programDeclaration (.inr List.mem_cons_self),
    Script.clear_manager, Script.clear_output, Script.clear_request⟩
  · exact Script.distinct_of_stem (by decide) _
  · have parts : volumeName u.2 = "Zn" ++ (toString u.2 ++ "vol") := String.append_assoc
    rw [parts]
    exact Script.distinct_of_stem (by decide) _

end Run

end ZoneAverage

namespace Sizing

/-- The name that the subroutine assigns to and does not declare. -/
def locals : List String := ["dummy"]

/-- A script without faults has a subroutine over the sizes and one part for each loop. -/
theorem outline {s : Sizing} {m : Model} (run : s.script.run .empty = .ok m) :
    ∃ sizes, s.script = Script.global discreteFlow ++ (Script.global calculatedFlow ++
      (Script.subroutine select (selection sizes).build ++ (s.airLoops.flatMap loopScript ++
      (Script.program s.program (s.airLoops.flatMap loopBody) ++
      Script.manager s.manager .endOfSystemSizing s.program)))) := by
  obtain ⟨ds, h, -⟩ := Script.run_eq_ok_iff.1 run
  unfold script at h ⊢
  split at h
  · cases ds <;> cases h
  · next some =>
    rw [if_neg some]
    cases hs : s.sizes with
    | error fault =>
      rw [hs] at h
      cases ds <;> cases h
    | ok sizes =>
      refine ⟨sizes, ?_⟩
      simp only [List.append_assoc]

/-- The warning of the default branch reads nothing. -/
theorem words_warning : words "@SevereWarnEP 666.0".toList = [] := by
  have called : words ('@' :: ("SevereWarnEP".toList ++ ' ' :: "666.0".toList)) =
      words "666.0".toList := words_function (by decide) (by decide)
  have number : Number.IsNumeral "666.0".toList := .of_all (by decide) rfl (by decide)
  rw [words_numeral number] at called
  exact called

section Run

variable {s : Sizing} {m : Model} (h : s.script.run .empty = .ok m)

include h

theorem declares_discreteFlow : m.Declares discreteFlow .global := by
  obtain ⟨sizes, shape⟩ := outline h
  exact Script.declares_global h fun x hx => by simp [shape, hx]

theorem declares_calculatedFlow : m.Declares calculatedFlow .global := by
  obtain ⟨sizes, shape⟩ := outline h
  exact Script.declares_global h fun x hx => by simp [shape, hx]

theorem declares_select : m.Declares select .subroutine := by
  obtain ⟨sizes, shape⟩ := outline h
  have part : Script.subroutine select (selection sizes).build ⊆ s.script :=
    fun x hx => by simp [shape, hx]
  exact Script.declares_subroutine h part

theorem declares_program : m.Declares s.program .program := by
  obtain ⟨sizes, shape⟩ := outline h
  have part : Script.program s.program (s.airLoops.flatMap loopBody) ⊆ s.script :=
    fun x hx => by simp [shape, hx]
  exact Script.declares_program h Script.isProgram_program part

theorem loopScript_subset {airLoop : String} (hl : airLoop ∈ s.airLoops) :
    loopScript airLoop ⊆ s.script := by
  obtain ⟨sizes, shape⟩ := outline h
  intro x hx
  have mem : x ∈ s.airLoops.flatMap loopScript := List.mem_flatMap.2 ⟨airLoop, hl, hx⟩
  rw [shape]
  simp only [List.mem_append, mem, true_or, or_true]

theorem within_loopBody {airLoop : String} (hl : airLoop ∈ s.airLoops) :
    OnResults (Statement.Within (m.scope [])) (loopBody airLoop) := by
  have calculated : m.Declares (calculatedName airLoop) .internal :=
    Script.declares_internal h
      (List.Subset.trans (List.subset_append_left _ _) (loopScript_subset h hl))
  have actuator : m.Declares (actuatorName airLoop) .actuator :=
    Script.declares_actuator h
      (List.Subset.trans (List.subset_append_right _ _) (loopScript_subset h hl))
  rw [loopBody, onResults_append, onResults_append]
  refine ⟨⟨?_, ?_⟩, ?_⟩
  · exact Scope.within_set (calculated.reads_words rfl _)
      ((declares_calculatedFlow h).writes rfl _)
  · exact Scope.within_run (declares_select h).found
  · exact Scope.within_set ((declares_discreteFlow h).reads_words rfl _) (actuator.writes rfl _)

theorem within_selection {sizes : List Float} {c : Code} (hc : (selection sizes).build = .ok c) :
    ∀ s ∈ c.statements, s.Within (m.scope locals) := by
  refine Scope.within_table hc ((declares_calculatedFlow h).reads rfl _)
    (fun r hr finite => ?_) fun d hd => ?_
  · obtain ⟨size, -, rfl⟩ := List.mem_map.1 hr
    refine ⟨(declares_discreteFlow h).writes rfl _, fun w hw _ => ?_⟩
    have none : words (Number.format size).toList = [] := words_format finite
    rw [none] at hw
    cases hw
  · cases hd
    refine ⟨.inl List.mem_cons_self, fun w hw _ => ?_⟩
    rw [words_warning] at hw
    cases hw

theorem closed : m.Closed locals := by
  obtain ⟨sizes, shape⟩ := outline h
  have assigned {c : Code} (hc : (selection sizes).build = .ok c) :
      ∀ l ∈ locals, ∃ s ∈ c.statements, ∃ n, s.target? = some n ∧ n.text = l := by
    intro l hl
    rw [List.mem_singleton.1 hl]
    exact Scope.exists_target_of_table hc rfl
  have loops {c : Code} (hc : Draft.build (s.airLoops.flatMap loopBody) = .ok c) :
      m.ClosedBody locals c :=
    closedBody_of_within
      (Scope.within_of_build hc (onResults_flatMap.2 fun l hl => within_loopBody h hl))
      nofun (List.nil_subset _)
  refine Script.closed_of_run h ?_ fun l hl => ?_
  · rw [shape]
    simp only [onResults_append, onResults_flatMap]
    exact ⟨Script.leads_global, Script.leads_global,
      Script.leads_subroutine fun c hc => closedBody_of_within (within_selection h hc)
        (assigned hc) (List.Subset.refl _),
      fun l _ => onResults_append.2 ⟨Script.leads_internal, Script.leads_actuator⟩,
      Script.leads_program Script.isProgram_program fun c => loops,
      Script.leads_manager (declares_program h).found⟩
  · have part : Script.subroutine select (selection sizes).build ⊆ s.script :=
      fun x hx => by simp [shape, hx]
    obtain ⟨p, hp, hc⟩ := Script.exists_subroutine_of_part h part
    obtain ⟨s, hs, n, target, named⟩ := assigned hc l hl
    exact ⟨p, List.mem_append_right _ hp, n, Code.mem_writes_iff.2 ⟨s, hs, target⟩, named⟩

theorem clear : OnResults (Script.ClearOf locals [s.program]) s.script := by
  obtain ⟨sizes, shape⟩ := outline h
  rw [shape]
  simp only [onResults_append, onResults_flatMap]
  refine ⟨Script.clear_global, Script.clear_global, Script.clear_subroutine (by decide),
    fun l _ => onResults_append.2 ⟨Script.clear_internal ?_, Script.clear_actuator⟩,
    Script.clear_program Script.isProgram_program (.inr List.mem_cons_self),
    Script.clear_manager⟩
  exact Script.distinct_of_ending (by decide) _

end Run

end Sizing

namespace Comfort

/-- The name that the subroutines assign to and do not declare. -/
def locals : List String := ["tmpError"]

theorem finite_of_checkBounds {c : Comfort} (h : c.checkBounds = .ok ()) :
    c.minVote.isFinite = true ∧ c.maxVote.isFinite = true := by
  have finite {what : String} {x y : Float} (hx : requireFinite what x = .ok y) :
      x.isFinite = true := by
    rw [requireFinite, mapError_eq_ok_iff, Number.requireFinite] at hx
    split at hx
    · next h => exact h
    · cases hx
  obtain ⟨low, hlow, h⟩ := bind_eq_ok_iff.1 h
  obtain ⟨high, hhigh, -⟩ := bind_eq_ok_iff.1 h
  exact ⟨finite hlow, finite hhigh⟩

/-- A script without faults has one part for each zone. -/
theorem outline {c : Comfort} {a : Numbering} {m : Model}
    (run : (c.script a).run .empty = .ok m) : c.zones ≠ [] ∧ c.checkBounds = .ok () ∧ ∃ timesteps,
      c.script a = (c.zones.zipIdx a.next).flatMap fun u => c.zoneScript timesteps u.1 u.2 := by
  obtain ⟨ds, h, -⟩ := Script.run_eq_ok_iff.1 run
  unfold script at h ⊢
  split at h
  · cases ds <;> cases h
  · next some =>
    rw [if_neg some]
    cases bounds : c.checkBounds with
    | error fault =>
      rw [bounds] at h
      cases ds <;> cases h
    | ok u =>
      rw [bounds] at h
      cases steps : c.trendTimesteps with
      | error fault =>
        rw [steps] at h
        cases ds <;> cases h
      | ok timesteps =>
        rw [steps] at h
        exact ⟨by simpa using some, rfl, timesteps, Script.forEach_eq h⟩

/-- The halt code is a number, or one number less another. -/
theorem words_haltCode (n : Nat) (side : Side) {bound : Float} (finite : bound.isFinite = true) :
    words ("@FatalHaltEp " ++ haltCode n side bound).toList = [] := by
  have digits : ∀ c ∈ (toString n).toList ++ side.code.toList, c.isDigit = true := by
    intro c hc
    rcases List.mem_append.1 hc with hc | hc
    · rw [toList_toString] at hc
      exact Decimal.isDigit_of_mem_digitChars hc
    · cases side <;> exact List.all_eq_true.1 (by decide) c hc
  have nonempty : (toString n).toList ++ side.code.toList ≠ [] := by
    cases side <;> simp [Side.code]
  have called : words ('@' :: ("FatalHaltEp".toList ++ ' ' ::
      ((toString n).toList ++ side.code.toList ++ (Number.format bound).toList))) = _ :=
    words_function (by decide) (by decide)
  rw [words_digits_format nonempty digits finite] at called
  have code : haltCode n side bound = toString n ++ side.code ++ Number.format bound := rfl
  rw [code, String.toList_append, String.toList_append, String.toList_append]
  exact called

theorem words_average {trend : String} (h : isWord trend.toList = true) (timesteps : Nat) :
    words (s!"@TrendAverage {trend} {timesteps}").toList = [trend] := by
  have digits : words (toString timesteps).toList = [] := by
    rw [toList_toString]
    obtain ⟨d, ds, hd⟩ := List.exists_cons_of_ne_nil (Decimal.digitChars_ne_nil timesteps)
    have digit : ∀ c ∈ d :: ds, c.isDigit = true := fun c hc =>
      Decimal.isDigit_of_mem_digitChars (hd ▸ hc)
    have numeral : (d :: ds).all Number.isNumeralChar = true :=
      List.all_eq_true.2 fun c hc => Number.isNumeralChar_of_isDigit (digit c hc)
    rw [hd]
    exact words_numeral (.of_all numeral rfl (digit d List.mem_cons_self))
  have called : words ('@' :: ("TrendAverage".toList ++ ' ' ::
      (trend.toList ++ ' ' :: (toString timesteps).toList))) = _ :=
    words_function (by decide) (by decide)
  rw [words_word_mark h (by decide), digits] at called
  have text : s!"@TrendAverage {trend} {timesteps}" =
      "@TrendAverage " ++ (trend ++ (" " ++ toString timesteps)) := by
    simp only [← String.append_assoc]
    rfl
  rw [text, String.toList_append, String.toList_append, String.toList_append]
  exact called

/-- The subroutine of a zone assigns to the local name. -/
theorem assigned {c : Comfort} {n : Nat} {code : Code} (h : (c.haltBody n).build = .ok code) :
    ∀ l ∈ locals, ∃ s ∈ code.statements, ∃ k, s.target? = some k ∧ k.text = l := by
  intro l hl
  rw [List.mem_singleton.1 hl]
  exact Scope.exists_target_of_build h (by simp [haltBody])

section Run

variable {c : Comfort} {a : Numbering} {m : Model} {timesteps n : Nat} {zone : String}
  (h : (c.script a).run .empty = .ok m) (sub : c.zoneScript timesteps zone n ⊆ c.script a)

include h sub

theorem declares_vote : m.Declares (voteName n) .sensor := by
  have part : Script.sensor (voteName n) zone voteOutput ⊆ c.script a :=
    fun x hx => sub (by simp [zoneScript, hx])
  exact Script.declares_sensor h part

theorem declares_trend : m.Declares (trendName n) .trend := by
  have part : Script.trend (trendName n) (voteName n) timesteps ⊆ c.script a :=
    fun x hx => sub (by simp [zoneScript, hx])
  exact Script.declares_trend h part

theorem declares_average : m.Declares (averageName n) .global := by
  have part : Script.global (averageName n) ⊆ c.script a :=
    fun x hx => sub (by simp [zoneScript, hx])
  exact Script.declares_global h part

omit h in
theorem halt_subset : Script.subroutine (haltName n) (c.haltBody n).build ⊆ c.script a :=
  fun x hx => sub (by simp [zoneScript, hx])

theorem declares_halt : m.Declares (haltName n) .subroutine :=
  Script.declares_subroutine h (halt_subset sub)

theorem declares_update : m.Declares (updateName n) .program := by
  have part : Script.program (updateName n) (updateBody timesteps n) ⊆ c.script a :=
    fun x hx => sub (by simp [zoneScript, hx])
  exact Script.declares_program h Script.isProgram_program part

theorem within_haltBody (bounds : c.checkBounds = .ok ()) :
    OnResults (Statement.Within (m.scope locals)) (c.haltBody n) := by
  obtain ⟨low, high⟩ := finite_of_checkBounds bounds
  have compare := (declares_average h sub).reads rfl locals
  have halt {side : Side} {bound : Float} (finite : bound.isFinite = true) :
      OnResults (Statement.Within (m.scope locals))
        (Draft.set "tmpError" s!"@FatalHaltEp {haltCode n side bound}") := by
    refine Scope.within_set (fun w hw _ => ?_) (.inl List.mem_cons_self)
    have none := words_haltCode n side finite
    rw [show words (s!"@FatalHaltEp {haltCode n side bound}").toList = [] from none] at hw
    cases hw
  have endIf : OnResults (Statement.Within (m.scope locals)) (Draft.push .endIf) :=
    Scope.within_push (Scope.within_of_no_names (.inr (.inl rfl)))
  simp only [haltBody, onResults_append]
  exact ⟨⟨⟨⟨⟨Scope.within_ifCompare compare, halt high⟩, endIf⟩, Scope.within_ifCompare compare⟩,
    halt low⟩, endIf⟩

theorem within_updateBody : OnResults (Statement.Within (m.scope [])) (updateBody timesteps n) := by
  have trend := declares_trend h sub
  rw [updateBody, onResults_append]
  refine ⟨Scope.within_set (fun w hw _ => ?_) ((declares_average h sub).writes rfl _),
    Scope.within_run (declares_halt h sub).found⟩
  rw [words_average trend.word, List.mem_singleton] at hw
  rw [hw]
  exact trend.reads rfl _

theorem leads_zoneScript (bounds : c.checkBounds = .ok ()) :
    OnResults (Script.Leads m locals) (c.zoneScript timesteps zone n) := by
  simp only [zoneScript, onResults_append]
  refine ⟨⟨⟨⟨⟨⟨⟨Script.leads_sensor, Script.leads_request⟩,
    Script.leads_trend (declares_vote h sub).found rfl⟩, Script.leads_global⟩,
    Script.leads_subroutine fun code hc => ?_⟩,
    Script.leads_program Script.isProgram_program fun code hc => ?_⟩,
    Script.leads_manager (declares_update h sub).found⟩,
    Script.leads_output (declares_average h sub).found rfl⟩
  · exact closedBody_of_within (Scope.within_of_build hc (within_haltBody h sub bounds))
      (assigned hc) (List.Subset.refl _)
  · exact closedBody_of_within (Scope.within_of_build hc (within_updateBody h sub))
      (List.forall_mem_nil _) (List.nil_subset _)

end Run

theorem clear_zoneScript {c : Comfort} {timesteps : Nat} {zone : String} {n : Nat} :
    OnResults (Script.ClearOf locals []) (c.zoneScript timesteps zone n) := by
  simp only [zoneScript, onResults_append]
  refine ⟨⟨⟨⟨⟨⟨⟨Script.clear_sensor ?_, Script.clear_request⟩, Script.clear_trend ?_⟩,
    Script.clear_global⟩, Script.clear_subroutine ?_⟩,
    Script.clear_program Script.isProgram_program (.inl ?_)⟩, Script.clear_manager⟩,
    Script.clear_output⟩
  · exact Script.distinct_of_stem (by decide) _
  · exact Script.distinct_of_stem (by decide) _
  · have parts : haltName n = "a_" ++ (toString n ++ "_Kill_Run_if_Uncomfortable") :=
      String.append_assoc
    rw [parts]
    exact Script.distinct_of_stem (by decide) _
  · exact Script.distinct_of_stem (by decide) _

theorem closed {c : Comfort} {a : Numbering} {m : Model} (h : (c.script a).run .empty = .ok m) :
    m.Closed locals := by
  obtain ⟨nonempty, bounds, timesteps, shape⟩ := outline h
  have part {u : String × Nat} (hu : u ∈ c.zones.zipIdx a.next) :
      c.zoneScript timesteps u.1 u.2 ⊆ c.script a := by
    intro x hx
    rw [shape]
    exact List.mem_flatMap.2 ⟨u, hu, hx⟩
  refine Script.closed_of_run h ?_ fun l hl => ?_
  · rw [shape, onResults_flatMap]
    exact fun u hu => leads_zoneScript h (part hu) bounds
  · -- the first zone has a subroutine with the local name
    obtain ⟨zone, rest, hz⟩ := List.exists_cons_of_ne_nil nonempty
    have first : (zone, a.next) ∈ c.zones.zipIdx a.next := by
      rw [hz, List.zipIdx_cons]
      exact List.mem_cons_self
    obtain ⟨p, hp, hc⟩ := Script.exists_subroutine_of_part h (halt_subset (part first))
    obtain ⟨s, hs, n, target, named⟩ := assigned hc l hl
    exact ⟨p, List.mem_append_right _ hp, n, Code.mem_writes_iff.2 ⟨s, hs, target⟩, named⟩

theorem clear {c : Comfort} {a : Numbering} {m : Model} (h : (c.script a).run .empty = .ok m) :
    OnResults (Script.ClearOf locals []) (c.script a) := by
  obtain ⟨-, -, timesteps, shape⟩ := outline h
  rw [shape, onResults_flatMap]
  exact fun u _ => clear_zoneScript

end Comfort

end BuildingControl.Measure
