/-
  BuildingControl.Proofs.Measure.Curve

  The references of the curve program.  One program covers all units; each unit
  computes its value through local names, some of which it reads again.  Local
  names and sensors of units differ in their first two characters.
-/
import BuildingControl.Proofs.Measure.Reference

namespace BuildingControl.Measure.Curve

open Erl Model

/-! ## Local names -/

/-- The names of one unit that the program assigns to and does not declare. -/
def unitLocals (n : Nat) : List String :=
  [s!"TTmp_{n}", s!"WTmp_{n}", s!"PTmp_{n}", s!"MyWB_{n}", s!"IVOnea_{n}", s!"IVTwo_{n}",
   s!"IVThree_{n}", s!"LeftCurveInput_{n}", s!"RightCurveInput_{n}", resultName n] ++
  ([1, 2, 3, 4, 5, 6].map (coefficientName .own n) ++
   [1, 2, 3, 4, 5, 6].map (coefficientName .alternate n))

/-- The names that the program assigns to and does not declare. -/
def locals (c : Curve) (a : Numbering) : List String :=
  (c.units.zipIdx a.next).flatMap fun u => unitLocals u.2

theorem isWord_coefficientName (source : Source) (n k : Nat) :
    isWord (coefficientName source n k).toList = true := by
  have number : (toString n).toList.all isNameChar = true := by
    rw [toList_toString, List.all_eq_true]
    intro c hc
    exact isNameChar_of_isDigit (Decimal.isDigit_of_mem_digitChars hc)
  have front : isWord ("C" ++ toString k).toList = true := isWord_numbered (by decide) k
  cases source with
  | own =>
    have parts : coefficientName .own n k = "C" ++ toString k ++ "_" ++ toString n := rfl
    rw [parts, String.toList_append, String.toList_append]
    exact isWord_append (isWord_append front (by decide)) number
  | alternate =>
    have parts : coefficientName .alternate n k = "C" ++ toString k ++ "_a" ++ toString n := rfl
    rw [parts, String.toList_append, String.toList_append]
    exact isWord_append (isWord_append front (by decide)) number

/-! ## Words of the generated expressions -/

theorem words_wetBulb {t w p : String} (ht : isWord t.toList = true) (hw : isWord w.toList = true)
    (hp : isWord p.toList = true) :
    words ("@TwbFnTdbWPb " ++ (t ++ (" " ++ (w ++ (" " ++ p))))).toList = [t, w, p] := by
  have called : words ('@' :: ("TwbFnTdbWPb".toList ++ ' ' ::
      (t.toList ++ ' ' :: (w.toList ++ ' ' :: p.toList)))) = _ :=
    words_function (by decide) (by decide)
  rw [words_word_mark ht (by decide), words_word_mark hw (by decide), words_word_end hp] at called
  simp only [String.toList_append]
  exact called

theorem words_left {k x l m : String} (hk : isWord k.toList = true) (hl : isWord l.toList = true)
    (hm : isWord m.toList = true) (hx : isWord x.toList = true) :
    words (k ++ "+(" ++ l ++ "*" ++ x ++ ")+(" ++ m ++ "*" ++ x ++ "*" ++ x ++ ")").toList =
      [k, l, x, m, x, x] := by
  have parts : (k ++ "+(" ++ l ++ "*" ++ x ++ ")+(" ++ m ++ "*" ++ x ++ "*" ++ x ++ ")").toList =
      k.toList ++ '+' :: ('(' :: (l.toList ++ '*' :: (x.toList ++ ')' :: ('+' :: ('(' ::
        (m.toList ++ '*' :: (x.toList ++ '*' :: (x.toList ++ [')'])))))))) := by
    simp [String.toList_append]
  rw [parts, words_word_mark hk (by decide), words_mark (by decide),
    words_word_mark hl (by decide), words_word_mark hx (by decide), words_mark (by decide),
    words_mark (by decide), words_word_mark hm (by decide), words_word_mark hx (by decide),
    words_word_mark hx (by decide), words_nil]

theorem words_right {k y l m z : String} (hk : isWord k.toList = true)
    (hl : isWord l.toList = true) (hm : isWord m.toList = true) (hy : isWord y.toList = true)
    (hz : isWord z.toList = true) :
    words ("(" ++ k ++ "*" ++ y ++ ")+(" ++ l ++ "*" ++ y ++ "*" ++ y ++ ")+(" ++ m ++
      ("*" ++ z ++ ")")).toList = [k, y, l, y, y, m, z] := by
  have parts : ("(" ++ k ++ "*" ++ y ++ ")+(" ++ l ++ "*" ++ y ++ "*" ++ y ++ ")+(" ++ m ++
      ("*" ++ z ++ ")")).toList =
      '(' :: (k.toList ++ '*' :: (y.toList ++ ')' :: ('+' :: ('(' :: (l.toList ++ '*' ::
        (y.toList ++ '*' :: (y.toList ++ ')' :: ('+' :: ('(' :: (m.toList ++ '*' ::
          (z.toList ++ [')']))))))))))) := by
    simp [String.toList_append]
  rw [parts, words_mark (by decide), words_word_mark hk (by decide),
    words_word_mark hy (by decide), words_mark (by decide), words_mark (by decide),
    words_word_mark hl (by decide), words_word_mark hy (by decide),
    words_word_mark hy (by decide), words_mark (by decide), words_mark (by decide),
    words_word_mark hm (by decide), words_word_mark hz (by decide), words_nil]

theorem words_times {x y : String} (hx : isWord x.toList = true) (hy : isWord y.toList = true) :
    words (x ++ "*" ++ y).toList = [x, y] := by
  have parts : (x ++ "*" ++ y).toList = x.toList ++ '*' :: y.toList := by
    simp [String.toList_append]
  rw [parts, words_word_mark hx (by decide), words_word_end hy]

theorem words_plus {x y : String} (hx : isWord x.toList = true) (hy : isWord y.toList = true) :
    words (x ++ " + " ++ y).toList = [x, y] := by
  have parts : (x ++ " + " ++ y).toList = x.toList ++ ' ' :: ('+' :: (' ' :: y.toList)) := by
    simp [String.toList_append]
  rw [parts, words_word_mark hx (by decide), words_mark (by decide), words_mark (by decide),
    words_word_end hy]

/-! ## The script -/

/-- A script without faults has a threshold and one part for each unit. -/
theorem outline {c : Curve} {a : Numbering} {m : Model} (run : (c.script a).run .empty = .ok m) :
    ∃ threshold, c.thresholdCelsius = .ok threshold ∧ c.script a =
      ((c.units.zipIdx a.next).flatMap fun u => c.unitScript u.1 u.2) ++
      (Script.program c.program (c.body threshold a) ++
      (Script.manager c.manager .afterPredictorBeforeHVACManagers c.program ++
      Script.request Script.everyKey "Site Outdoor Air Drybulb Temperature" .hourly)) := by
  obtain ⟨ds, h, -⟩ := Script.run_eq_ok_iff.1 run
  unfold script at h ⊢
  split at h
  · cases ds <;> cases h
  · next some =>
    rw [if_neg some]
    cases ht : c.thresholdCelsius with
    | error fault =>
      rw [ht] at h
      cases ds <;> cases h
    | ok threshold =>
      rw [ht] at h
      refine ⟨threshold, rfl, ?_⟩
      simp only [List.append_assoc] at h ⊢
      obtain ⟨_, _, first, -, -⟩ := allOk_append_iff.1 h
      rw [Script.forEach_eq first]

theorem finite_of_checkCoefficients {q : Biquadratic} {u : Unit} (h : checkCoefficients q = .ok u) :
    ∀ x ∈ q.toList, x.isFinite = true := by
  intro x hx
  cases u
  have checked := allOk_eq_ok_iff.1 (mapError_eq_ok_iff.1 h) x hx
  obtain ⟨y, hy, -⟩ := map_eq_ok_iff.1 checked
  rw [Number.requireFinite] at hy
  split at hy
  · next finite => exact finite
  · cases hy

theorem finite_of_subset {c : Curve} {a : Numbering} {m : Model}
    (h : (c.script a).run .empty = .ok m) {q : Biquadratic}
    (sub : Script.require (checkCoefficients q) ⊆ c.script a) :
    ∀ x ∈ q.toList, x.isFinite = true := by
  obtain ⟨ds, met, -⟩ := Script.exists_of_part h sub
  obtain ⟨_, checked⟩ := Script.exists_of_allOk_require met
  exact finite_of_checkCoefficients checked

section Unit

variable {c : Curve} {a : Numbering} {m : Model} {u : CurveUnit} {n : Nat}
  (h : (c.script a).run .empty = .ok m) (sub : c.unitScript u n ⊆ c.script a)

include h sub

theorem declares_overwrite : m.Declares (overwriteName n) .actuator := by
  have part : Script.actuator (overwriteName n) u.curve .curve "Curve Result" ⊆ c.script a :=
    fun x hx => sub (by simp only [unitScript, List.mem_append, hx, true_or])
  exact Script.declares_actuator h part

theorem declares_previous : m.Declares (previousName n) .global := by
  have part : Script.global (previousName n) ⊆ c.script a :=
    fun x hx => sub (by simp only [unitScript, List.mem_append, hx, true_or, or_true])
  exact Script.declares_global h part

theorem declares_actual : m.Declares (actualName n) .sensor := by
  have part : Script.sensor (actualName n) u.curve "Performance Curve Output Value" ⊆
      c.script a := fun x hx => sub (by simp only [unitScript, List.mem_append, hx, true_or, or_true])
  exact Script.declares_sensor h part

theorem declares_pressure : m.Declares (pressureName n) .sensor := by
  have part : Script.sensor (pressureName n) (u.heatPump ++ " OA Node") "System Node Pressure" ⊆
      c.script a := fun x hx => sub (by simp only [unitScript, List.mem_append, hx, true_or, or_true])
  exact Script.declares_sensor h part

theorem declares_inlet : m.Declares (inletName n) .sensor := by
  have part : Script.sensor (inletName n) (u.heatPump ++ " Mixed Air Node")
      "System Node Temperature" ⊆ c.script a :=
    fun x hx => sub (by simp only [unitScript, List.mem_append, hx, true_or, or_true])
  exact Script.declares_sensor h part

theorem declares_humidity : m.Declares (humidityName n) .sensor := by
  have part : Script.sensor (humidityName n) (u.heatPump ++ " Mixed Air Node")
      "System Node Humidity Ratio" ⊆ c.script a :=
    fun x hx => sub (by simp only [unitScript, List.mem_append, hx, true_or, or_true])
  exact Script.declares_sensor h part

theorem declares_outdoor : m.Declares (outdoorName n) .sensor := by
  have part : Script.sensor (outdoorName n) (u.heatPump ++ " OA Node") "System Node Temperature" ⊆
      c.script a := fun x hx => sub (by simp only [unitScript, List.mem_append, hx, true_or, or_true])
  exact Script.declares_sensor h part

end Unit

/-! ## The program -/

section Lines

variable {σ : Scope} {n : Nat}
  (own : ∀ l ∈ unitLocals n, σ.reads l ∧ σ.writes l)

include own

theorem within_setCoefficients (source : Source) {q : Biquadratic}
    (finite : ∀ x ∈ q.toList, x.isFinite = true) :
    OnResults (Statement.Within σ) (setCoefficients source n q) := by
  refine onResults_flatMap.2 fun x hx => Scope.within_set (fun w hw _ => ?_) ?_
  · have value : x.1 ∈ q.toList := by
      obtain ⟨-, -, hx⟩ := List.mem_zipIdx hx
      rw [hx]
      exact List.getElem_mem _
    rw [words_format (finite x.1 value)] at hw
    cases hw
  · have place : x.2 ∈ [1, 2, 3, 4, 5, 6] := by
      have places : x.2 ∈ (q.toList.zipIdx 1).map Prod.snd := List.mem_map_of_mem hx
      rw [List.zipIdx_map_snd] at places
      exact places
    refine (own _ ?_).2
    cases source with
    | own => exact List.mem_append_right _ (List.mem_append_left _ (List.mem_map_of_mem place))
    | alternate =>
      exact List.mem_append_right _ (List.mem_append_right _ (List.mem_map_of_mem place))

theorem within_evaluate (source : Source) :
    OnResults (Statement.Within σ) (evaluate source n) := by
  have coefficient (k : Nat) (hk : k ∈ [1, 2, 3, 4, 5, 6]) :
      σ.reads (coefficientName source n k) := by
    refine (own _ ?_).1
    cases source with
    | own => exact List.mem_append_right _ (List.mem_append_left _ (List.mem_map_of_mem hk))
    | alternate =>
      exact List.mem_append_right _ (List.mem_append_right _ (List.mem_map_of_mem hk))
  have word := isWord_coefficientName source n
  have one := own s!"IVOnea_{n}" (by simp [unitLocals])
  have two := own s!"IVTwo_{n}" (by simp [unitLocals])
  have three := own s!"IVThree_{n}" (by simp [unitLocals])
  have left := own s!"LeftCurveInput_{n}" (by simp [unitLocals])
  have right := own s!"RightCurveInput_{n}" (by simp [unitLocals])
  have result := own (resultName n) (by simp [unitLocals])
  simp only [evaluate, onResults_append]
  refine ⟨⟨Scope.within_set (fun w hw _ => ?_) left.2,
    Scope.within_set (fun w hw _ => ?_) right.2⟩, Scope.within_set (fun w hw _ => ?_) result.2⟩
  · rw [words_left (word 1) (word 2) (word 3) (isWord_numbered (by decide) n)] at hw
    simp only [List.mem_cons, List.not_mem_nil, or_false] at hw
    rcases hw with rfl | rfl | rfl | rfl | rfl | rfl
    · exact coefficient 1 (by decide)
    · exact coefficient 2 (by decide)
    · exact one.1
    · exact coefficient 3 (by decide)
    · exact one.1
    · exact one.1
  · have parts : s!"*IVThree_{n})" = "*" ++ s!"IVThree_{n}" ++ ")" := by
      rw [← String.append_assoc]
      rfl
    rw [parts, words_right (word 4) (word 5) (word 6) (isWord_numbered (by decide) n)
      (isWord_numbered (by decide) n)] at hw
    simp only [List.mem_cons, List.not_mem_nil, or_false] at hw
    rcases hw with rfl | rfl | rfl | rfl | rfl | rfl | rfl
    · exact coefficient 4 (by decide)
    · exact two.1
    · exact coefficient 5 (by decide)
    · exact two.1
    · exact two.1
    · exact coefficient 6 (by decide)
    · exact three.1
  · have parts : s!"LeftCurveInput_{n} + RightCurveInput_{n}" =
        s!"LeftCurveInput_{n}" ++ " + " ++ s!"RightCurveInput_{n}" := by
      apply String.toList_injective
      simp [String.toList_append, toString]
    rw [parts, words_plus (isWord_numbered (by decide) n) (isWord_numbered (by decide) n)] at hw
    simp only [List.mem_cons, List.not_mem_nil, or_false] at hw
    rcases hw with rfl | rfl
    · exact left.1
    · exact right.1

end Lines

section Run

variable {c : Curve} {a : Numbering} {m : Model} {u : CurveUnit} {n : Nat}
  (h : (c.script a).run .empty = .ok m) (sub : c.unitScript u n ⊆ c.script a)

include h sub

theorem within_unitBody (threshold : Float) (mine : unitLocals n ⊆ c.locals a) :
    OnResults (Statement.Within (m.scope (c.locals a))) (c.unitBody threshold u n) := by
  have own : ∀ l ∈ unitLocals n,
      (m.scope (c.locals a)).reads l ∧ (m.scope (c.locals a)).writes l :=
    fun l hl => ⟨.inr (mine hl), .inl (mine hl)⟩
  have ownPart : Script.require (checkCoefficients u.coefficients) ⊆ c.script a :=
    fun x hx => sub (by simp only [unitScript, List.mem_append, hx, true_or, or_true])
  have otherPart : Script.require (checkCoefficients c.alternate) ⊆ c.script a :=
    fun x hx => sub (by simp only [unitScript, List.mem_append, hx, or_true])
  have temperature := own s!"TTmp_{n}" (by simp [unitLocals])
  have humidity := own s!"WTmp_{n}" (by simp [unitLocals])
  have pressure := own s!"PTmp_{n}" (by simp [unitLocals])
  have wetBulb := own s!"MyWB_{n}" (by simp [unitLocals])
  have one := own s!"IVOnea_{n}" (by simp [unitLocals])
  have two := own s!"IVTwo_{n}" (by simp [unitLocals])
  have three := own s!"IVThree_{n}" (by simp [unitLocals])
  have result := own (resultName n) (by simp [unitLocals])
  -- a local name alone reads itself
  have alone {stem : String} (word : isWord stem.toList = true)
      (mine : (m.scope (c.locals a)).reads (stem ++ toString n)) :
      ∀ w ∈ words (stem ++ toString n).toList, isReserved w = false →
        (m.scope (c.locals a)).reads w := by
    intro w hw _
    rw [words_word_end (isWord_numbered word n), List.mem_singleton] at hw
    rw [hw]
    exact mine
  simp only [unitBody, onResults_append]
  refine ⟨⟨⟨⟨⟨⟨⟨⟨⟨⟨⟨⟨⟨⟨?_, ?_⟩, ?_⟩, ?_⟩, ?_⟩, ?_⟩, ?_⟩, ?_⟩, ?_⟩, ?_⟩, ?_⟩, ?_⟩, ?_⟩, ?_⟩, ?_⟩
  · exact Scope.within_set ((declares_inlet h sub).reads_words rfl _) temperature.2
  · exact Scope.within_set ((declares_humidity h sub).reads_words rfl _) humidity.2
  · exact Scope.within_set ((declares_pressure h sub).reads_words rfl _) pressure.2
  · refine Scope.within_set (fun w hw _ => ?_) wetBulb.2
    have parts : s!"@TwbFnTdbWPb TTmp_{n} WTmp_{n} PTmp_{n}" = "@TwbFnTdbWPb " ++
        (s!"TTmp_{n}" ++ (" " ++ (s!"WTmp_{n}" ++ (" " ++ s!"PTmp_{n}")))) := by
      apply String.toList_injective
      simp [String.toList_append, toString]
    rw [parts, words_wetBulb (isWord_numbered (by decide) n) (isWord_numbered (by decide) n)
      (isWord_numbered (by decide) n)] at hw
    simp only [List.mem_cons, List.not_mem_nil, or_false] at hw
    rcases hw with rfl | rfl | rfl
    · exact temperature.1
    · exact humidity.1
    · exact pressure.1
  · exact Scope.within_set (alone (by decide) wetBulb.1) one.2
  · exact Scope.within_set ((declares_outdoor h sub).reads_words rfl _) two.2
  · refine Scope.within_set (fun w hw _ => ?_) three.2
    have parts : s!"IVOnea_{n}*IVTwo_{n}" = s!"IVOnea_{n}" ++ "*" ++ s!"IVTwo_{n}" := by
      apply String.toList_injective
      simp [String.toList_append, toString]
    rw [parts, words_times (isWord_numbered (by decide) n) (isWord_numbered (by decide) n)] at hw
    simp only [List.mem_cons, List.not_mem_nil, or_false] at hw
    rcases hw with rfl | rfl
    · exact one.1
    · exact two.1
  · exact within_setCoefficients own .own (finite_of_subset h ownPart)
  · exact within_setCoefficients own .alternate (finite_of_subset h otherPart)
  · exact within_evaluate own .own
  · exact Scope.within_set (alone (by decide) result.1) ((declares_previous h sub).writes rfl _)
  · exact Scope.within_ifCompare ((declares_outdoor h sub).reads rfl _)
  · exact within_evaluate own .alternate
  · exact Scope.within_push (Scope.within_of_no_names (.inr (.inl rfl)))
  · exact Scope.within_set (alone (by decide) result.1) ((declares_overwrite h sub).writes rfl _)

theorem leads_unitScript {locals : List String} :
    OnResults (Script.Leads m locals) (c.unitScript u n) := by
  have output {name source : String} {cls : NameClass} (found : m.Declares source cls)
      (isVariable : cls.isVariable = true) :
      OnResults (Script.Leads m locals) (report name source) :=
    onResults_append.2 ⟨Script.leads_output found.found isVariable, Script.leads_request⟩
  simp only [unitScript, onResults_append]
  exact ⟨⟨⟨⟨⟨⟨⟨⟨⟨⟨⟨Script.leads_actuator, Script.leads_global⟩, Script.leads_sensor⟩,
    Script.leads_sensor⟩, Script.leads_sensor⟩, Script.leads_sensor⟩, Script.leads_sensor⟩,
    output (declares_actual h sub) rfl⟩, output (declares_previous h sub) rfl⟩,
    output (declares_overwrite h sub) rfl⟩, Script.onResults_require⟩, Script.onResults_require⟩

end Run

/-- Each unit assigns to its local names. -/
theorem assigns_unitBody {c : Curve} {threshold : Float} {u : CurveUnit} {n : Nat} :
    ∀ l ∈ unitLocals n, (c.unitBody threshold u n).Assigns l := by
  have coefficient (source : Source) (q : Biquadratic) :
      ∀ k ∈ [1, 2, 3, 4, 5, 6], (setCoefficients source n q).Assigns (coefficientName source n k) := by
    intro k hk
    have places : k ∈ (q.toList.zipIdx 1).map Prod.snd := by
      rw [List.zipIdx_map_snd]
      exact hk
    obtain ⟨x, hx, rfl⟩ := List.mem_map.1 places
    exact Draft.assigns_flatMap.2 ⟨x, hx, Draft.assigns_set⟩
  intro l hl
  rcases List.mem_append.1 hl with hl | hl
  · simp only [List.mem_cons, List.not_mem_nil, or_false] at hl
    rcases hl with rfl | rfl | rfl | rfl | rfl | rfl | rfl | rfl | rfl | rfl <;>
      simp only [unitBody, evaluate, Draft.assigns_append, Draft.assigns_set, true_or, or_true]
  rcases List.mem_append.1 hl with hl | hl
  · obtain ⟨k, hk, rfl⟩ := List.mem_map.1 hl
    simp only [unitBody, Draft.assigns_append, coefficient .own _ k hk, true_or, or_true]
  · obtain ⟨k, hk, rfl⟩ := List.mem_map.1 hl
    simp only [unitBody, Draft.assigns_append, coefficient .alternate _ k hk, true_or, or_true]

/-! ## Sensors and local names -/

/-- How local names start, in upper case. -/
def localFronts : List (List Char) :=
  [['T', 'T'], ['W', 'T'], ['P', 'T'], ['M', 'Y'], ['I', 'V'], ['L', 'E'], ['R', 'I'], ['C', 'U'],
   ['C', '1'], ['C', '2'], ['C', '3'], ['C', '4'], ['C', '5'], ['C', '6']]

theorem take_mem_localFronts {n : Nat} {l : String} (h : l ∈ unitLocals n) :
    (l.toList.map Char.toUpper).take 2 ∈ localFronts := by
  -- two characters at least stand before the first number that is not written out
  have front {stem more : String} (long : 2 ≤ stem.toList.length)
      (known : (stem.toList.map Char.toUpper).take 2 ∈ localFronts) :
      ((stem ++ more).toList.map Char.toUpper).take 2 ∈ localFronts := by
    rw [String.toList_append, List.map_append, List.take_append_of_le_length (by simpa using long)]
    exact known
  rcases List.mem_append.1 h with h | h
  · simp only [List.mem_cons, List.not_mem_nil, or_false] at h
    rcases h with rfl | rfl | rfl | rfl | rfl | rfl | rfl | rfl | rfl | rfl <;>
      exact front (by decide) (by decide)
  rcases List.mem_append.1 h with h | h
  · simp only [List.map_cons, List.map_nil, List.mem_cons, List.not_mem_nil, or_false] at h
    rcases h with rfl | rfl | rfl | rfl | rfl | rfl <;> exact front (by decide) (by decide)
  · simp only [List.map_cons, List.map_nil, List.mem_cons, List.not_mem_nil, or_false] at h
    rcases h with rfl | rfl | rfl | rfl | rfl | rfl <;> exact front (by decide) (by decide)

/-- A name that starts with other characters is no local name. -/
theorem distinct_of_front {c : Curve} {a : Numbering} {stem : String} (long : 2 ≤ stem.toList.length)
    (other : (stem.toList.map Char.toUpper).take 2 ∉ localFronts) (more : String) :
    Script.Distinct (c.locals a) (stem ++ more) := by
  refine Script.distinct_of_stem (fun l hl starts => other ?_) more
  obtain ⟨u, -, hl⟩ := List.mem_flatMap.1 hl
  obtain ⟨rest, same⟩ := starts
  have known := take_mem_localFronts hl
  rwa [← same, List.take_append_of_le_length (by simpa using long)] at known

theorem clear_unitScript {c : Curve} {a : Numbering} {given : List String} {u : CurveUnit}
    {n : Nat} : OnResults (Script.ClearOf (c.locals a) given) (c.unitScript u n) := by
  have output {name source : String} :
      OnResults (Script.ClearOf (c.locals a) given) (report name source) :=
    onResults_append.2 ⟨Script.clear_output, Script.clear_request⟩
  simp only [unitScript, onResults_append]
  refine ⟨⟨⟨⟨⟨⟨⟨⟨⟨⟨⟨Script.clear_actuator, Script.clear_global⟩, Script.clear_sensor ?_⟩,
    Script.clear_sensor ?_⟩, Script.clear_sensor ?_⟩, Script.clear_sensor ?_⟩,
    Script.clear_sensor ?_⟩, output⟩, output⟩, output⟩, Script.onResults_require⟩,
    Script.onResults_require⟩ <;> exact distinct_of_front (by decide) (by decide) _

/-! ## The measure -/

section Measure

variable {c : Curve} {a : Numbering} {m : Model} (h : (c.script a).run .empty = .ok m)

include h

theorem declares_program : m.Declares c.program .program := by
  obtain ⟨threshold, -, shape⟩ := outline h
  have part : Script.program c.program (c.body threshold a) ⊆ c.script a :=
    fun x hx => by simp [shape, hx]
  exact Script.declares_program h Script.isProgram_program part

theorem unitScript_subset {u : CurveUnit × Nat} (hu : u ∈ c.units.zipIdx a.next) :
    c.unitScript u.1 u.2 ⊆ c.script a := by
  obtain ⟨threshold, -, shape⟩ := outline h
  intro x hx
  rw [shape]
  exact List.mem_append_left _ (List.mem_flatMap.2 ⟨u, hu, hx⟩)

omit h in
theorem assigned {threshold : Float} {code : Code} (hc : (c.body threshold a).build = .ok code) :
    ∀ l ∈ c.locals a, ∃ s ∈ code.statements, ∃ n, s.target? = some n ∧ n.text = l := by
  intro l hl
  obtain ⟨u, hu, mine⟩ := List.mem_flatMap.1 hl
  exact Scope.exists_target_of_build hc
    (Draft.assigns_flatMap.2 ⟨u, hu, assigns_unitBody l mine⟩)

theorem closed : m.Closed (c.locals a) := by
  obtain ⟨threshold, -, shape⟩ := outline h
  have body : OnResults (Statement.Within (m.scope (c.locals a))) (c.body threshold a) := by
    refine onResults_flatMap.2 fun u hu => ?_
    have mine : unitLocals u.2 ⊆ c.locals a := fun l hl => List.mem_flatMap.2 ⟨u, hu, hl⟩
    exact within_unitBody h (unitScript_subset h hu) threshold mine
  refine Script.closed_of_run h ?_ fun l hl => ?_
  · rw [shape]
    simp only [onResults_append, onResults_flatMap]
    exact ⟨fun u hu => leads_unitScript h (unitScript_subset h hu),
      Script.leads_program Script.isProgram_program fun code hc =>
        closedBody_of_within (Scope.within_of_build hc body) (assigned hc) (List.Subset.refl _),
      Script.leads_manager (declares_program h).found, Script.leads_request⟩
  · have part : Script.program c.program (c.body threshold a) ⊆ c.script a :=
      fun x hx => by simp [shape, hx]
    obtain ⟨p, hp, hc⟩ := Script.exists_program_of_part h Script.isProgram_program part
    obtain ⟨s, hs, n, target, named⟩ := assigned hc l hl
    exact ⟨p, List.mem_append_left _ hp, n, Code.mem_writes_iff.2 ⟨s, hs, target⟩, named⟩

theorem clear : OnResults (Script.ClearOf (c.locals a) [c.program]) (c.script a) := by
  obtain ⟨threshold, -, shape⟩ := outline h
  rw [shape]
  simp only [onResults_append, onResults_flatMap]
  exact ⟨fun u _ => clear_unitScript,
    Script.clear_program Script.isProgram_program (.inr List.mem_cons_self),
    Script.clear_manager, Script.clear_request⟩

end Measure

end BuildingControl.Measure.Curve
