/-
  BuildingControl.Proofs.Measure.Naming

  What the objects of a measure are called.  A script makes objects with at most
  the names that are foreseen, and none of its own faults is that a name is taken
  (`Script.Names`).  The names of a unit follow patterns of the measure with the
  number of the unit; the few others carry no number.  So the tags of all names are
  known from the kind of the measure, its first number and how many units it has
  (`tags_labels`), whatever the building calls its parts.
-/
import BuildingControl.Proofs.Erl.Tagged
import BuildingControl.Proofs.Measure.Reference
import BuildingControl.Proofs.Measure.Spelling
import BuildingControl.Proofs.Model.Label

namespace BuildingControl.Measure

open Erl Model

/-! ## Scripts -/

/-- Whether a fault is a name that is taken already. -/
def Fault.isDuplicate : Fault → Bool
  | .program fault => fault.isDuplicate
  | _ => false

/-- A step that never fails for a name that is taken already. -/
def Clashless {α : Type} (x : Except Fault α) : Prop :=
  OnFault (fun fault => fault.isDuplicate = false) x

theorem Fault.isDuplicate_of_isSpelling {fault : Fault} (spelling : fault.isSpelling = true) :
    fault.isDuplicate = false := by
  cases fault with
  | program fault => exact Erl.Fault.isDuplicate_of_isSpelling spelling
  | _ => cases spelling

namespace Script

/-- The objects that a script makes, its faults aside. -/
def made (s : Script) : List Declaration := s.filterMap Except.toOption

/-- The names of the objects that a script makes. -/
def labels (s : Script) : List String := s.made.filterMap Declaration.label?

/-- A script makes objects with some of these names, in order, and never fails of itself for a
    name that is taken. -/
structure Names (s : Script) (names : List String) : Prop where
  labels : s.labels.Sublist names
  clashless : ∀ step ∈ s, Clashless step

theorem Names.append {s t : Script} {names more : List String} (hs : s.Names names)
    (ht : t.Names more) : Names (s ++ t) (names ++ more) where
  labels := by
    rw [Script.labels, made, List.filterMap_append, List.filterMap_append]
    exact hs.labels.append ht.labels
  clashless := List.forall_mem_append.2 ⟨hs.clashless, ht.clashless⟩

theorem names_nil : Names [] [] where
  labels := List.nil_sublist []
  clashless := List.forall_mem_nil _

/-- A script that fails at once makes nothing. -/
theorem names_error {fault : Fault} (h : fault.isDuplicate = false) (names : List String) :
    Names [.error fault] names :=
  ⟨List.nil_sublist _, List.forall_mem_singleton.2 (onFault_error.2 h)⟩

theorem names_one {d : Except Erl.Fault Declaration} {names : List String}
    (clashless : ∀ step ∈ one d, Clashless step)
    (object : ∀ ds, AllOk (one d) ds → ds.filterMap Declaration.label? = names) :
    Names (one d) names where
  labels := by
    cases d with
    | error fault => exact List.nil_sublist _
    | ok x =>
      rw [← object [x] rfl]
      exact .refl _
  clashless := clashless

theorem names_require {α : Type} {check : Except Fault α} (h : Clashless check) :
    Names (require check) [] := by
  cases check with
  | error fault => exact names_error (h fault rfl) []
  | ok x => exact names_nil

/-! ### Objects by the spelling of their names -/

section Objects

variable (name : String)

/-- How an object is written down says nothing of the names in use. -/
theorem Spelled.clashless {s : Script} (h : s.Spelled) : ∀ step ∈ s, Clashless step :=
  fun step mem => (h step mem).imp fun _ => Fault.isDuplicate_of_isSpelling

theorem clashless_program {body : Draft} (h : body.Clean) :
    ∀ step ∈ program name body, Clashless step :=
  onFaults_singleton.2 (onFault_mapError_iff.2 ((textual_name name).clashless.bind fun _ _ =>
    h.build.bind fun _ _ => onFault_ok _))

theorem names_sensor (key output : String) : Names (sensor name key output) [name] := by
  refine names_one (spelled_sensor name key output).clashless fun ds all => ?_
  obtain ⟨n, rfl, rfl⟩ := allOk_sensor_iff.1 all
  rfl

theorem names_actuator (component : String) (kind : ComponentKind) (control : String) :
    Names (actuator name component kind control) [name] := by
  refine names_one (spelled_actuator name component kind control).clashless fun ds all => ?_
  obtain ⟨n, a, rfl, ha, rfl⟩ := allOk_actuator_iff.1 all
  rw [← name_of_ofComponent ha]
  rfl

theorem names_global : Names (global name) [name] := by
  refine names_one (spelled_global name).clashless fun ds all => ?_
  obtain ⟨n, rfl, rfl⟩ := allOk_global_iff.1 all
  rfl

theorem names_trend (source : String) (timesteps : Nat) :
    Names (trend name source timesteps) [name] := by
  refine names_one (spelled_trend name source timesteps).clashless fun ds all => ?_
  obtain ⟨n, k, rfl, -, rfl⟩ := allOk_trend_iff.1 all
  rfl

theorem names_program {body : Draft} (h : body.Clean) : Names (program name body) [name] := by
  refine names_one (clashless_program name h) fun ds all => ?_
  obtain ⟨n, c, rfl, -, rfl⟩ := allOk_program_iff.1 all
  rfl

theorem names_subroutine {body : Draft} (h : body.Clean) :
    Names (subroutine name body.build) [name] := by
  have clashless : ∀ step ∈ subroutine name body.build, Clashless step :=
    onFaults_singleton.2 (onFault_mapError_iff.2 ((textual_name name).clashless.bind fun _ _ =>
      h.build.bind fun _ _ => onFault_ok _))
  refine names_one clashless fun ds all => ?_
  obtain ⟨n, c, rfl, -, rfl⟩ := allOk_subroutine_iff.1 all
  rfl

theorem names_manager (point : CallingPoint) (program : String) :
    Names (manager name point program) [name] := by
  refine names_one (spelled_manager name point program).clashless fun ds all => ?_
  obtain ⟨n, -, rfl⟩ := allOk_manager_iff.1 all
  rfl

theorem names_output (source : String) (frequency : UpdateFrequency) (units : Option String) :
    Names (output name source frequency units) [name] := by
  refine names_one (spelled_output name source frequency units).clashless fun ds all => ?_
  obtain ⟨n, -, rfl⟩ := allOk_output_iff.1 all
  rfl

theorem names_request (key variableName : String) (frequency : ReportingFrequency) :
    Names (request key variableName frequency) [] := by
  refine names_one (spelled_request key variableName frequency).clashless fun ds all => ?_
  obtain ⟨x, hx, rfl⟩ := allOk_one_iff.1 all
  cases hx
  rfl

end Objects

/-- The names of numbered units: those of each with its number. -/
theorem names_forEach {α : Type} {a : Numbering} {units : List α} {part : α → Nat → Script}
    {names : α → Nat → List String} (room : a.next + units.length ≤ Numbering.limit)
    (each : ∀ x n, Names (part x n) (names x n)) :
    Names (forEach a units part) ((units.zipIdx a.next).flatMap fun u => names u.1 u.2) := by
  induction units generalizing a with
  | nil => exact names_nil
  | cons x units ih =>
    rw [List.length_cons] at room
    have one : a.skip 1 = .ok ⟨a.next + 1, Nat.lt_add_right 1 a.pos, by omega⟩ := dif_pos _
    rw [forEach, Numbering.advance, one, List.zipIdx_cons, List.flatMap_cons]
    refine (each x a.next).append (ih ?_)
    show a.next + 1 + units.length ≤ Numbering.limit
    omega

end Script

/-! ## Patterns -/

/-- The patterns of the names of one unit, as they are read. -/
def Kind.unitPatterns : Kind → List String
  | .comfortHalt =>
    ["PMV", "PMVTRENDLOG", "PMVR", "A__", "MY_AVERAGEPMV", "AVERAGE ZONE  ", "A_ "]
  | .condenserLoopOverride =>
    ["VERRIDEREPORT", "ACTUATOR_LOOP", "PFLOWOVERRIDE", "W OVERRIDE ON"]
  | .curveResultOverride =>
    ["URVEOVERWRITE", "CURVEINPUT2_", "ACTUALCURVE", "PRESSURE", "COILINLETDBT", "COILINLETW",
      "OAT", "ERLCURVEVALUE", "OLDCURVEVALUE", "NEWCURVEVALUE"]
  | _ => []

/-- The names without a number that come before those of the units. -/
def Kind.opening : Kind → List String
  | .condenserLoopOverride => ["OUTDOORTEMP"]
  | _ => []

/-- The names without a number that come after those of the units. -/
def Kind.closing : Kind → List String
  | .condenserLoopOverride => ["TOWERCONTROL", "CONDENSER ONOFF MANAGEMENT"]
  | .curveResultOverride => ["CURVEOVERWRITEMGR", "EMSBASEDCURVEMANAGER"]
  | _ => []

/-- The tags of the names of so many units, the first of which has the given number. -/
def unitTags (patterns : List String) (first count : Nat) : List (String × Nat) :=
  (List.range' first count).flatMap fun n => patterns.map (·, n)

/-- The tags of the names of a measure. -/
def tags (kind : Kind) (first count : Nat) : List (String × Nat) :=
  kind.opening.map (·, 0) ++ unitTags kind.unitPatterns first count ++ kind.closing.map (·, 0)

/-- The tags of units that are named one by one. -/
theorem map_tag_units {α : Type} {units : List α} {names : α → Nat → List String}
    {patterns : List String} (each : ∀ x n, (names x n).map tag = patterns.map (·, n))
    (first : Nat) : ((units.zipIdx first).flatMap fun u => names u.1 u.2).map tag =
      unitTags patterns first units.length := by
  have numbers : (units.zipIdx first).map Prod.snd = List.range' first units.length :=
    List.zipIdx_map_snd _ _
  rw [List.map_flatMap, unitTags, ← numbers, List.flatMap_map]
  simp only [each]

/-! ## Comfort -/

namespace Comfort

/-- The names of the objects of zone `n`. -/
def zoneNames (c : Comfort) (n : Nat) : List String :=
  [voteName n, trendName n, averageName n, haltName n, updateName n, s!"Average Zone {n} PMV",
    s!"a_{n} Running {Number.format c.trendHours} Hour Average PMV"]

theorem names_zoneScript (c : Comfort) (timesteps : Nat) (zone : String) (n : Nat) :
    (c.zoneScript timesteps zone n).Names (c.zoneNames n) := by
  have halt : (c.haltBody n).Clean := by simp [haltBody]
  have update : (updateBody timesteps n).Clean := by simp [updateBody]
  exact (((((((Script.names_sensor _ _ _).append (Script.names_request _ _ _)).append
    (Script.names_trend _ _ _)).append (Script.names_global _)).append
    (Script.names_subroutine _ halt)).append (Script.names_program _ update)).append
    (Script.names_manager _ _ _)).append (Script.names_output _ _ _ _)

theorem tag_zoneNames (c : Comfort) (n : Nat) :
    (c.zoneNames n).map tag = Kind.comfortHalt.unitPatterns.map (·, n) := by
  have vote : tag (voteName n) = ("PMV", n) := tag_numbered (by decide +kernel) n
  have trend : tag (trendName n) = ("PMVTRENDLOG", n) := tag_numbered (by decide +kernel) n
  have average : tag (averageName n) = ("PMVR", n) :=
    tag_between (c := 'R') (by decide +kernel) (by decide +kernel) n
  have halt : tag (haltName n) = ("A__", n) :=
    tag_between (c := '_') (by decide +kernel) (by decide +kernel) n
  have update : tag (updateName n) = ("MY_AVERAGEPMV", n) := tag_numbered (by decide +kernel) n
  have manager : tag s!"Average Zone {n} PMV" = ("AVERAGE ZONE  ", n) :=
    tag_between (c := ' ') (by decide +kernel) (by decide +kernel) n
  have output : tag s!"a_{n} Running {Number.format c.trendHours} Hour Average PMV" =
      ("A_ ", n) := by
    -- the number of hours stands behind the first number
    have parts : s!"a_{n} Running {Number.format c.trendHours} Hour Average PMV" = "a_" ++
        toString n ++ (" Running " ++ (Number.format c.trendHours ++ " Hour Average PMV")) := by
      rw [← String.append_assoc, ← String.append_assoc]
      rfl
    rw [parts]
    have last : isAscii " Hour Average PMV" = true := by decide +kernel
    have nonempty : (Text.asciiUpper " Hour Average PMV").toList ≠ [] := by decide +kernel
    have ends : endsOpen (Text.asciiUpper " Hour Average PMV") = true := by decide +kernel
    have first : isAscii " Running " = true := by decide +kernel
    rw [← upper_of_isAscii last] at nonempty ends
    refine tag_inside (c := ' ') (by decide +kernel) ?_ ?_ n
    · rw [Text.upper_append, String.toList_append, upper_of_isAscii first]
      rfl
    · rw [← String.append_assoc, Text.upper_append, endsOpen_append _ nonempty, ends]
  simp only [zoneNames, Kind.unitPatterns, List.map_cons, List.map_nil, vote, trend, average, halt,
    update, manager, output]

theorem clashless_requireFinite (what : String) (x : Float) :
    Clashless (requireFinite what x) :=
  OnFault.mapError fun _ => rfl

theorem clashless_checkBounds (c : Comfort) : Clashless c.checkBounds := by
  refine (clashless_requireFinite _ _).bind fun low _ =>
    (clashless_requireFinite _ _).bind fun high _ => ?_
  split
  · exact onFault_error.2 rfl
  · exact onFault_ok _

theorem clashless_trendTimesteps (c : Comfort) : Clashless c.trendTimesteps := by
  refine (clashless_requireFinite _ _).bind fun hours _ =>
    (clashless_requireFinite _ _).bind fun minutes _ => ?_
  split
  · exact onFault_error.2 rfl
  · dsimp only
    split
    · exact onFault_error.2 rfl
    · exact onFault_ok _

theorem exists_names (c : Comfort) {a : Numbering}
    (room : a.next + c.zones.length ≤ Numbering.limit) :
    ∃ names, (c.script a).Names names ∧
      names.map tag = tags .comfortHalt a.next c.zones.length := by
  refine ⟨(c.zones.zipIdx a.next).flatMap fun u => c.zoneNames u.2, ?_, ?_⟩
  · unfold script
    split
    · exact Script.names_error rfl _
    · split
      · next fault failed => exact Script.names_error (c.clashless_checkBounds fault failed) _
      · split
        · next fault failed => exact Script.names_error (c.clashless_trendTimesteps fault failed) _
        · exact Script.names_forEach room fun zone n => c.names_zoneScript _ zone n
  · rw [map_tag_units fun _ n => c.tag_zoneNames n]
    exact (List.append_nil _).symm

end Comfort

/-! ## Condenser loops -/

namespace Condenser

/-- The names of the objects of loop `n`. -/
def loopNames (l : CondenserLoop) (n : Nat) : List String :=
  [reportName n, loopActuator l n, pumpActuator l n, outputName n]

theorem names_loopScript (l : CondenserLoop) (n : Nat) :
    (loopScript l n).Names (loopNames l n) :=
  ((((Script.names_global _).append (Script.names_actuator _ _ _ _)).append
    (Script.names_actuator _ _ _ _)).append (Script.names_output _ _ _ _)).append
    (Script.names_request _ _ _)

theorem tag_loopNames (l : CondenserLoop) (n : Nat) :
    (loopNames l n).map tag = Kind.condenserLoopOverride.unitPatterns.map (·, n) := by
  have report : tag (reportName n) = ("VERRIDEREPORT", n) := tag_numbered (by decide +kernel) n
  have loop : tag (loopActuator l n) = ("ACTUATOR_LOOP", n) :=
    tag_hosted (sanitize l.name) (by decide +kernel) n
  have pump : tag (pumpActuator l n) = ("PFLOWOVERRIDE", n) :=
    tag_hosted (sanitize l.name) (by decide +kernel) n
  have output : tag (outputName n) = ("W OVERRIDE ON", n) := tag_numbered (by decide +kernel) n
  simp only [loopNames, Kind.unitPatterns, List.map_cons, List.map_nil, report, loop, pump, output]

theorem clean_body (c : Condenser) (threshold : Float) (a : Numbering) :
    (c.body threshold a).Clean :=
  Draft.clean_flatMap fun u _ => by simp [loopBody]

theorem clashless_threshold (c : Condenser) : Clashless c.thresholdCelsius := by
  unfold thresholdCelsius
  split
  · exact onFault_ok _
  · exact onFault_error.2 rfl

theorem exists_names {c : Condenser} (program : c.program = default.program)
    (manager : c.manager = default.manager) {a : Numbering}
    (room : a.next + c.loops.length ≤ Numbering.limit) :
    ∃ names, (c.script a).Names names ∧
      names.map tag = tags .condenserLoopOverride a.next c.loops.length := by
  refine ⟨[outdoor] ++ ((c.loops.zipIdx a.next).flatMap fun u => loopNames u.1 u.2) ++
    [c.program] ++ [c.manager], ?_, ?_⟩
  · unfold script
    split
    · exact Script.names_error rfl _
    · split
      · next fault failed => exact Script.names_error (c.clashless_threshold fault failed) _
      · next threshold _ =>
        exact (((Script.names_sensor _ _ _).append (Script.names_forEach room names_loopScript)).append
          (Script.names_program _ (c.clean_body threshold a))).append (Script.names_manager _ _ _)
  · have sensor : tag outdoor = ("OUTDOORTEMP", 0) :=
      tag_plain (by decide +kernel)
    have programTag : tag default.program = ("TOWERCONTROL", 0) :=
      tag_plain (by decide +kernel)
    have managerTag : tag default.manager = ("CONDENSER ONOFF MANAGEMENT", 0) :=
      tag_plain (by decide +kernel)
    simp only [List.map_append, map_tag_units tag_loopNames, program, manager, List.map_cons,
      List.map_nil, sensor, programTag, managerTag, tags, Kind.opening, Kind.closing,
      List.append_assoc, List.cons_append, List.nil_append]

end Condenser

/-! ## Curves -/

namespace Curve

/-- The names of the objects of unit `n`. -/
def unitNames (n : Nat) : List String :=
  [overwriteName n, previousName n, actualName n, pressureName n, inletName n, humidityName n,
    outdoorName n, s!"ERLCurveValue{n}", s!"OldCurveValue{n}", s!"NewCurveValue{n}"]

theorem names_report (name source : String) : (report name source).Names [name] :=
  (Script.names_output _ _ _ _).append (Script.names_request _ _ _)

theorem clashless_checkCoefficients (q : Biquadratic) : Clashless (checkCoefficients q) :=
  OnFault.mapError fun _ => rfl

theorem names_unitScript (c : Curve) (u : CurveUnit) (n : Nat) :
    (c.unitScript u n).Names (unitNames n) :=
  (((((((((((Script.names_actuator _ _ _ _).append (Script.names_global _)).append
    (Script.names_sensor _ _ _)).append (Script.names_sensor _ _ _)).append
    (Script.names_sensor _ _ _)).append (Script.names_sensor _ _ _)).append
    (Script.names_sensor _ _ _)).append (names_report _ _)).append (names_report _ _)).append
    (names_report _ _)).append (Script.names_require (clashless_checkCoefficients _))).append
    (Script.names_require (clashless_checkCoefficients _))

theorem tag_unitNames (n : Nat) :
    (unitNames n).map tag = Kind.curveResultOverride.unitPatterns.map (·, n) := by
  have overwrite : tag (overwriteName n) = ("URVEOVERWRITE", n) :=
    tag_numbered (by decide +kernel) n
  have previous : tag (previousName n) = ("CURVEINPUT2_", n) := tag_numbered (by decide +kernel) n
  have actual : tag (actualName n) = ("ACTUALCURVE", n) := tag_numbered (by decide +kernel) n
  have pressure : tag (pressureName n) = ("PRESSURE", n) := tag_numbered (by decide +kernel) n
  have inlet : tag (inletName n) = ("COILINLETDBT", n) := tag_numbered (by decide +kernel) n
  have humidity : tag (humidityName n) = ("COILINLETW", n) := tag_numbered (by decide +kernel) n
  have outside : tag (outdoorName n) = ("OAT", n) := tag_numbered (by decide +kernel) n
  have value : tag s!"ERLCurveValue{n}" = ("ERLCURVEVALUE", n) :=
    tag_numbered (by decide +kernel) n
  have old : tag s!"OldCurveValue{n}" = ("OLDCURVEVALUE", n) := tag_numbered (by decide +kernel) n
  have new : tag s!"NewCurveValue{n}" = ("NEWCURVEVALUE", n) := tag_numbered (by decide +kernel) n
  simp only [unitNames, Kind.unitPatterns, List.map_cons, List.map_nil, overwrite, previous, actual,
    pressure, inlet, humidity, outside, value, old, new]

theorem clean_body (c : Curve) (threshold : Float) (a : Numbering) : (c.body threshold a).Clean := by
  have coefficients (source : Source) (n : Nat) (q : Biquadratic) :
      (setCoefficients source n q).Clean :=
    Draft.clean_flatMap fun x _ => Draft.clean_set _ _
  have value (source : Source) (n : Nat) : (evaluate source n).Clean := by simp [evaluate]
  exact Draft.clean_flatMap fun u _ => by simp [unitBody, coefficients, value]

theorem clashless_threshold (c : Curve) : Clashless c.thresholdCelsius := by
  unfold thresholdCelsius
  split
  · exact onFault_ok _
  · exact onFault_error.2 rfl

theorem exists_names {c : Curve} (program : c.program = default.program)
    (manager : c.manager = default.manager) {a : Numbering}
    (room : a.next + c.units.length ≤ Numbering.limit) :
    ∃ names, (c.script a).Names names ∧
      names.map tag = tags .curveResultOverride a.next c.units.length := by
  refine ⟨((c.units.zipIdx a.next).flatMap fun u => unitNames u.2) ++ [c.program] ++ [c.manager] ++
    [], ?_, ?_⟩
  · unfold script
    split
    · exact Script.names_error rfl _
    · split
      · next fault failed => exact Script.names_error (c.clashless_threshold fault failed) _
      · next threshold _ =>
        exact (((Script.names_forEach room c.names_unitScript).append
          (Script.names_program _ (c.clean_body threshold a))).append
          (Script.names_manager _ _ _)).append (Script.names_request _ _ _)
  · have programTag : tag default.program = ("CURVEOVERWRITEMGR", 0) :=
      tag_plain (by decide +kernel)
    have managerTag : tag default.manager = ("EMSBASEDCURVEMANAGER", 0) :=
      tag_plain (by decide +kernel)
    simp only [List.map_append, map_tag_units (fun (_ : CurveUnit) => tag_unitNames), program,
      manager, List.map_cons, List.map_nil, programTag, managerTag, tags, Kind.opening,
      Kind.closing, List.append_assoc, List.cons_append, List.nil_append, List.append_nil]

end Curve

/-! ## Measures -/

/-- A measure all of whose names follow its patterns: a watch on comfort, or loops or curves under
    the program and the manager that are named when none is given. -/
def KeepsNames : Measure → Prop
  | comfortHalt _ => True
  | condenserLoopOverride c =>
    c.program = Condenser.default.program ∧ c.manager = Condenser.default.manager
  | curveResultOverride c =>
    c.program = Curve.default.program ∧ c.manager = Curve.default.manager
  | _ => False

/-- The names of a measure have the tags of its kind with the numbers of its units. -/
theorem exists_names {x : Measure} (keeps : KeepsNames x) {a : Numbering}
    (room : a.next + x.unitCount ≤ Numbering.limit) :
    ∃ names, (x.script a).Names names ∧ names.map tag = tags x.kind a.next x.unitCount := by
  cases x with
  | comfortHalt c => exact c.exists_names room
  | condenserLoopOverride c => exact Condenser.exists_names keeps.1 keeps.2 room
  | curveResultOverride c => exact Curve.exists_names keeps.1 keeps.2 room
  | _ => exact keeps.elim

end BuildingControl.Measure
