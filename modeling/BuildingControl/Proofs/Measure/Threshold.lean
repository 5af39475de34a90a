/-
  BuildingControl.Proofs.Measure.Threshold

  Thresholds that measures read from text.  An accepted threshold may be infinite,
  as a finite temperature can be too large to be rounded (`ReadsThreshold`).  The
  lines of a program follow its threshold: they fail for their text or for the
  threshold (`Follows`).  So a finite threshold is never what a measure fails for,
  and an infinite one is what it fails for wherever another would do (`Counts`).
-/
import BuildingControl.Proofs.Measure.Blame
import BuildingControl.Proofs.Measure.Closed
import BuildingControl.Proofs.Measure.Curve
import BuildingControl.Proofs.Quantity

namespace BuildingControl.Erl.Draft

open Number

/-- The fault of a branch on a boundary that is not finite. -/
def unbounded (boundary : Float) : Fault := .nonFinite ⟨"condition boundary", boundary⟩

/-- The lines of a draft are the same for all thresholds, but for branches on the threshold.  So
    they fail for their text or for the threshold, and like the lines for another threshold or for
    the threshold. -/
structure Follows (body : Float → Draft) : Prop where
  lines : ∀ {P : Fault → Prop} {threshold : Float},
    (∀ fault : Fault, fault.isTextual = true → P fault) →
    (threshold.isFinite = false → P (unbounded threshold)) → OnFaults P (body threshold)
  alike : ∀ {P : Fault → Prop} {threshold other : Float}, OnFaults P (body other) →
    (threshold.isFinite = false → P (unbounded threshold)) → OnFaults P (body threshold)

theorem follows_set (target value : String) : Follows fun _ => set target value :=
  ⟨fun textual _ => onFaults_set textual target value, fun same _ => same⟩

theorem follows_push (s : Statement) : Follows fun _ => push s :=
  ⟨fun _ _ => onFaults_push s, fun same _ => same⟩

theorem follows_ifCompare (subject : String) (comparison : Comparison) :
    Follows (ifCompare subject comparison) where
  lines textual boundary := onFaults_ifCompare ((textual_name subject).imp textual) boundary
  alike other boundary := onFaults_ifCompare (onFaults_singleton.1 other).of_bind boundary

theorem Follows.append {body more : Float → Draft} (hb : Follows body) (hm : Follows more) :
    Follows fun threshold => body threshold ++ more threshold where
  lines textual boundary :=
    onFaults_append.2 ⟨hb.lines textual boundary, hm.lines textual boundary⟩
  alike other boundary := by
    obtain ⟨first, later⟩ := onFaults_append.1 other
    exact onFaults_append.2 ⟨hb.alike first boundary, hm.alike later boundary⟩

theorem follows_flatMap {α : Type} {xs : List α} {part : α → Float → Draft}
    (each : ∀ x, Follows (part x)) : Follows fun threshold => xs.flatMap (part · threshold) where
  lines textual boundary := onFaults_flatMap.2 fun x _ => (each x).lines textual boundary
  alike other boundary :=
    onFaults_flatMap.2 fun x hx => (each x).alike (onFaults_flatMap.1 other x hx) boundary

/-- With an infinite threshold a draft fails for it where it becomes a program with another, if
    there is a branch on the threshold at all. -/
theorem Follows.build_infinity {body : Float → Draft} (h : Follows body) {subject : String}
    {comparison : Comparison} (branch : ifCompare subject comparison infinity ⊆ body infinity)
    {other : Float} {code : Code} (built : (body other).build = .ok code) :
    (body infinity).build = .error (unbounded infinity) := by
  have lines : OnFaults (· = unbounded infinity) (body infinity) :=
    h.alike (statements_of_build built).onFaults fun _ => rfl
  unfold build
  cases read : (body infinity).statements? with
  | ok statements =>
    -- all lines would be lines, the branch among them
    have all := statements?_eq_ok_iff.1 read
    obtain ⟨s, line⟩ := exists_allOk_iff.1 ⟨statements, all⟩ _ (branch List.mem_cons_self)
    obtain ⟨name, -, line⟩ := bind_eq_ok_iff.1 line
    obtain ⟨condition, bounded, -⟩ := bind_eq_ok_iff.1 line
    obtain ⟨b, hb, -⟩ := map_eq_ok_iff.1 bounded
    rw [Boundary.ofFloat?, dif_neg (by simp [isFinite_infinity])] at hb
    cases hb
  | error fault => rw [onFault_statements? lines fault read]

end BuildingControl.Erl.Draft

namespace BuildingControl.Measure

open Erl Model Number Quantity

/-! ## Reading a threshold -/

/-- A threshold is the temperature in its text, rounded. -/
def ReadsThreshold (text : String) (threshold : Float) : Prop :=
  ∃ t, readTemperature text = .ok t ∧ Rounds t.celsius threshold

theorem Condenser.readsThreshold {c : Condenser} {threshold : Float}
    (h : c.thresholdCelsius = .ok threshold) : ReadsThreshold c.threshold threshold := by
  unfold thresholdCelsius at h
  split at h
  · next t read =>
    cases h
    exact ⟨t, read, rounds_celsius read⟩
  · cases h

theorem Curve.readsThreshold {c : Curve} {threshold : Float}
    (h : c.thresholdCelsius = .ok threshold) : ReadsThreshold c.threshold threshold := by
  unfold thresholdCelsius at h
  split at h
  · next t read =>
    cases h
    exact ⟨t, read, rounds_celsius read⟩
  · cases h

/-! ## What a threshold does -/

/-- What the threshold in a text does to the building of a measure that has numbers of its own:
    the measure fails for no other number but its own, and an infinite threshold is what it fails
    for wherever another would let it build. -/
structure Counts {β : Type} (own : NonFinite → Prop) (build : String → Except Fault β)
    (text : String) (threshold : Float) : Prop where
  blames : OnFault (Fault.Blames fun n =>
    own n ∨ threshold = infinity ∧ n = ⟨"condition boundary", infinity⟩) (build text)
  stops : threshold = infinity → ∀ other b, build other = .ok b →
    build text = .error (.program (.nonFinite ⟨"condition boundary", infinity⟩))

/-- A measure that fails at once for no number, whatever its threshold. -/
theorem counts_of_error {β : Type} {own : NonFinite → Prop} {build : String → Except Fault β}
    {fault : Fault} (other : fault.nonFinite? = none) (fails : ∀ text, build text = .error fault)
    (text : String) (threshold : Float) : Counts own build text threshold where
  blames := by
    rw [fails text]
    exact onFault_error.2 (Fault.blames_of_eq_none other)
  stops := by
    intro _ another b built
    rw [fails another] at built
    cases built

section Script

variable {own : NonFinite → Prop} {x : String → Measure} {a : Numbering} {front back : Script}
  {name : String} {body : Float → Draft}

/-- A measure whose program follows the threshold. -/
theorem counts_of_follows (follows : Draft.Follows body) {subject : String}
    {comparison : Comparison}
    (branch : Draft.ifCompare subject comparison infinity ⊆ body infinity)
    (before : OnFaults (Fault.Blames own) front) (behind : OnFaults (Fault.Blames own) back)
    (others : ∀ other b, (x other).build a = .ok b →
      ∃ t, (x other).script a = front ++ (Script.program name (body t) ++ back))
    {text : String} {threshold : Float} (read : ReadsThreshold text threshold)
    (script : (x text).script a = front ++ (Script.program name (body threshold) ++ back)) :
    Counts own (fun text => (x text).build a) text threshold where
  blames := by
    have weaker (fault : Fault) (h : fault.Blames own) : fault.Blames fun n =>
        own n ∨ threshold = infinity ∧ n = ⟨"condition boundary", infinity⟩ :=
      fun n about => .inl (h n about)
    obtain ⟨t, -, rounded⟩ := read
    apply blames_build
    rw [script, onFaults_append, onFaults_append]
    refine ⟨fun step mem => (before step mem).imp weaker, Script.blames_program _ ?_,
      fun step mem => (behind step mem).imp weaker⟩
    refine follows.lines (fun _ => Erl.Fault.blames_of_isTextual) fun special n about => ?_
    have infinite := rounded.otherwise special
    cases about
    exact .inr ⟨infinite, by rw [infinite]⟩
  stops := by
    rintro rfl other b built
    -- the scripts agree up to the program, whose lines are the same but for the branch
    obtain ⟨t, theirs⟩ := others other b built
    exact build_eq_error_of_program built theirs script fun _ => follows.build_infinity branch

end Script

namespace Condenser

theorem follows_body (c : Condenser) (a : Numbering) : Draft.Follows (c.body · a) :=
  Draft.follows_flatMap fun _ =>
    ((((((((Draft.follows_ifCompare _ _).append (Draft.follows_set _ _)).append
      (Draft.follows_set _ _)).append (Draft.follows_set _ _)).append (Draft.follows_push _)).append
      (Draft.follows_set _ _)).append (Draft.follows_set _ _)).append
      (Draft.follows_set _ _)).append (Draft.follows_push _)

theorem branch_subset_body {c : Condenser} (some : c.loops ≠ []) (threshold : Float)
    (a : Numbering) : Draft.ifCompare outdoor .lt threshold ⊆ c.body threshold a := by
  obtain ⟨l, loops, hl⟩ := List.exists_cons_of_ne_nil some
  have first : (l, a.next) ∈ c.loops.zipIdx a.next := by simp [hl]
  intro line mem
  exact List.mem_flatMap.2 ⟨(l, a.next), first, by simp [loopBody, mem]⟩

theorem spelled_loopScript (l : CondenserLoop) (n : Nat) : (loopScript l n).Spelled :=
  ((((Script.spelled_global _).append (Script.spelled_actuator _ _ _ _)).append
    (Script.spelled_actuator _ _ _ _)).append (Script.spelled_output _ _ _ _)).append
    (Script.spelled_request _ _ _)

/-- The script of loops whose threshold has been read. -/
theorem script_eq {c : Condenser} {threshold : Float} (some : c.loops ≠ [])
    (ht : c.thresholdCelsius = .ok threshold) (a : Numbering) :
    c.script a = Script.sensor outdoor "Environment" "Site Outdoor Air Drybulb Temperature" ++
      Script.forEach a c.loops loopScript ++ (Script.program c.program (c.body threshold a) ++
      Script.manager c.manager .insideHVACSystemIterationLoop c.program) := by
  rw [script, if_neg (by simpa using some), ht]
  simp only [List.append_assoc]

theorem counts {c : Condenser} {threshold : Float} (ht : c.thresholdCelsius = .ok threshold)
    (a : Numbering) : Counts (fun _ => False)
      (fun text => (condenserLoopOverride { c with threshold := text }).build a)
      c.threshold threshold := by
  by_cases some : c.loops = []
  · have fails (text : String) : (condenserLoopOverride { c with threshold := text }).build a =
        .error (.nothingToApply .condenserLoopOverride .condenserLoops) := by
      simp [build, Measure.script, script, some, Script.run]
    exact counts_of_error rfl fails _ _
  · have ahead : OnFaults (Fault.Blames fun _ => False)
        (Script.sensor outdoor "Environment" "Site Outdoor Air Drybulb Temperature" ++
          Script.forEach a c.loops loopScript) :=
      onFaults_append.2 ⟨(Script.spelled_sensor _ _ _).blames,
        Script.blames_forEach fun l n => (spelled_loopScript l n).blames⟩
    refine counts_of_follows (c.follows_body a) (branch_subset_body some infinity a) ahead
      (Script.spelled_manager _ _ _).blames (fun other b built => ?_) (readsThreshold ht)
      (script_eq some ht a)
    have runs : (script { c with threshold := other } a).run .empty = .ok b.1 :=
      (build_eq_ok_iff.1 built).1
    obtain ⟨t, read, -⟩ := outline runs
    exact ⟨t, script_eq (c := { c with threshold := other }) some read a⟩

end Condenser

namespace Curve

theorem follows_body (c : Curve) (a : Numbering) : Draft.Follows (c.body · a) := by
  have coefficients (source : Source) (n : Nat) (q : Biquadratic) :
      Draft.Follows fun _ => setCoefficients source n q :=
    Draft.follows_flatMap fun _ => Draft.follows_set _ _
  have value (source : Source) (n : Nat) : Draft.Follows fun _ => evaluate source n :=
    ((Draft.follows_set _ _).append (Draft.follows_set _ _)).append (Draft.follows_set _ _)
  exact Draft.follows_flatMap fun _ =>
    ((((((((((((((Draft.follows_set _ _).append (Draft.follows_set _ _)).append
      (Draft.follows_set _ _)).append (Draft.follows_set _ _)).append
      (Draft.follows_set _ _)).append (Draft.follows_set _ _)).append
      (Draft.follows_set _ _)).append (coefficients _ _ _)).append (coefficients _ _ _)).append
      (value _ _)).append (Draft.follows_set _ _)).append (Draft.follows_ifCompare _ _)).append
      (value _ _)).append (Draft.follows_push _)).append (Draft.follows_set _ _)

theorem branch_subset_body {c : Curve} (some : c.units ≠ []) (threshold : Float)
    (a : Numbering) : Draft.ifCompare (outdoorName a.next) .gt threshold ⊆ c.body threshold a := by
  obtain ⟨u, units, hu⟩ := List.exists_cons_of_ne_nil some
  have first : (u, a.next) ∈ c.units.zipIdx a.next := by simp [hu]
  intro line mem
  exact List.mem_flatMap.2 ⟨(u, a.next), first, by simp [unitBody, mem]⟩

/-- The numbers of a curve are its coefficients. -/
def IsCoefficient (n : NonFinite) : Prop :=
  n.what = "curve coefficient"

theorem blames_checkCoefficients (q : Biquadratic) :
    OnFault (Fault.Blames IsCoefficient) (checkCoefficients q) := by
  refine onFault_mapError_iff.2 (OnFault.allOk fun x _ => OnFault.map ?_ _)
  unfold requireFinite
  split
  · exact onFault_ok _
  · refine onFault_error.2 fun n about => ?_
    cases about
    rfl

theorem blames_unitScript (c : Curve) (u : CurveUnit) (n : Nat) :
    OnFaults (Fault.Blames IsCoefficient) (c.unitScript u n) := by
  have output (name source : String) : (report name source).Spelled :=
    (Script.spelled_output _ _ _ _).append (Script.spelled_request _ _ _)
  have coefficients (q : Biquadratic) :
      OnFaults (Fault.Blames IsCoefficient) (Script.require (checkCoefficients q)) :=
    Script.blames_require (blames_checkCoefficients q)
  refine onFaults_append.2 ⟨onFaults_append.2 ⟨Script.Spelled.blames ?_, coefficients _⟩,
    coefficients _⟩
  exact (((((((((Script.spelled_actuator _ _ _ _).append (Script.spelled_global _)).append
    (Script.spelled_sensor _ _ _)).append (Script.spelled_sensor _ _ _)).append
    (Script.spelled_sensor _ _ _)).append (Script.spelled_sensor _ _ _)).append
    (Script.spelled_sensor _ _ _)).append (output _ _)).append (output _ _)).append (output _ _)

/-- The script of units whose threshold has been read. -/
theorem script_eq {c : Curve} {threshold : Float} (some : c.units ≠ [])
    (ht : c.thresholdCelsius = .ok threshold) (a : Numbering) :
    c.script a = Script.forEach a c.units c.unitScript ++
      (Script.program c.program (c.body threshold a) ++
      (Script.manager c.manager .afterPredictorBeforeHVACManagers c.program ++
      Script.request Script.everyKey "Site Outdoor Air Drybulb Temperature" .hourly)) := by
  rw [script, if_neg (by simpa using some), ht]
  simp only [List.append_assoc]

theorem counts {c : Curve} {threshold : Float} (ht : c.thresholdCelsius = .ok threshold)
    (a : Numbering) : Counts IsCoefficient
      (fun text => (curveResultOverride { c with threshold := text }).build a)
      c.threshold threshold := by
  by_cases some : c.units = []
  · have fails (text : String) : (curveResultOverride { c with threshold := text }).build a =
        .error (.nothingToApply .curveResultOverride .coils) := by
      simp [build, Measure.script, script, some, Script.run]
    exact counts_of_error rfl fails _ _
  · refine counts_of_follows (c.follows_body a) (branch_subset_body some infinity a)
      (Script.blames_forEach c.blames_unitScript)
      ((Script.spelled_manager _ _ _).append (Script.spelled_request _ _ _)).blames
      (fun other b built => ?_) (readsThreshold ht) (script_eq some ht a)
    have runs : (script { c with threshold := other } a).run .empty = .ok b.1 :=
      (build_eq_ok_iff.1 built).1
    obtain ⟨t, read, -⟩ := outline runs
    exact ⟨t, script_eq (c := { c with threshold := other }) some read a⟩

end Curve

end BuildingControl.Measure
