/-
  BuildingControl.Proofs.Measure.Average

  What the program for the average temperature computes.  The text of a sum over any
  number of zones comes to the sum of its terms (`yields_sum`), so after the program
  the global holds the mean of the temperatures weighted by the volumes
  (`runProgram_average`), whatever the global is called: the two sums are kept under
  names that no zone uses, and it does not matter if the global has one of them.
-/
import BuildingControl.Proofs.Erl.Arithmetic
import BuildingControl.Proofs.Erl.Numbered
import BuildingControl.Proofs.Measure.Closed
import BuildingControl.Proofs.Measure.Host
import Mathlib.Algebra.BigOperators.Group.List.Basic

namespace BuildingControl.Measure.ZoneAverage

open Erl Model

/-! ## Sums in writing -/

theorem toList_sum (t : String) (ts : List String) :
    (sum (t :: ts)).toList = t.toList ++ ts.flatMap fun u => ' ' :: '+' :: ' ' :: u.toList := by
  rw [sum, String.toList_intercalate, List.map_cons]
  induction ts generalizing t with
  | nil => simp
  | cons u ts ih =>
    rw [List.map_cons, List.intercalate_cons_cons, ih]
    simp

section Sums

variable {V : Type} {A : Arithmetic V} {σ : Store V}

/-- The tokens of a sum: those of its first term, then a plus and those of a term again and
    again. -/
def sumTokens {α : Type} (tokensOf : α → List Token) (x : α) (xs : List α) : List Token :=
  tokensOf x ++ xs.flatMap fun y => .other ' ' :: .other '+' :: .other ' ' :: tokensOf y

theorem isCut_append {ts us : List Token} (ht : isCut ts = true) (hu : isCut us = true)
    (starts : startsMark us = true) : isCut (ts ++ us) = true := by
  have first (ts : List Token) (h : startsMark ts = true) : startsMark (ts ++ us) = true := by
    cases ts with
    | nil => exact starts
    | cons t ts => cases t <;> exact h
  induction ts with
  | nil => exact hu
  | cons t ts ih =>
    cases t <;> simp_all [isCut]

theorem isCut_sumTokens {α : Type} {tokensOf : α → List Token}
    (cut : ∀ y, isCut (tokensOf y) = true) (x : α) (xs : List α) :
    isCut (sumTokens tokensOf x xs) = true := by
  have marks : isMark ' ' = true ∧ isMark '+' = true := by decide
  have starts (ys : List α) : startsMark (ys.flatMap fun y =>
      .other ' ' :: .other '+' :: .other ' ' :: tokensOf y) = true := by
    cases ys <;> rfl
  have later : isCut (xs.flatMap fun y =>
      .other ' ' :: .other '+' :: .other ' ' :: tokensOf y) = true := by
    induction xs with
    | nil => rfl
    | cons y ys ih =>
      rw [List.flatMap_cons]
      refine isCut_append ?_ ih (starts ys)
      simp [isCut, marks, cut y]
  exact isCut_append (cut x) later (starts xs)

/-- A sum means its first term with the others added one by one. -/
theorem means_sumTokens {α : Type} {tokensOf : α → List Token} {v : α → V}
    (means : ∀ y, A.Means σ .product (significant (tokensOf y)) [v y]) (x : α) (xs : List α) :
    A.Means σ .sum (significant (sumTokens tokensOf x xs))
      [xs.foldl (fun acc y => A.operate .add acc (v y)) (v x)] := by
  have more (ts : List Token) (w : V) (h : A.Means σ .sum ts [w]) :
      A.Means σ .sum (ts ++ significant (xs.flatMap fun y =>
        .other ' ' :: .other '+' :: .other ' ' :: tokensOf y))
        [xs.foldl (fun acc y => A.operate .add acc (v y)) w] := by
    induction xs generalizing ts w with
    | nil => simpa [significant] using h
    | cons y ys ih =>
      have next := ih _ _ (.sum .add rfl h (means y))
      have tokensNext : significant ((y :: ys).flatMap fun y =>
          .other ' ' :: .other '+' :: .other ' ' :: tokensOf y) =
          .other Operator.add.mark :: (significant (tokensOf y) ++ significant (ys.flatMap fun y =>
            .other ' ' :: .other '+' :: .other ' ' :: tokensOf y)) := by
        have blanks : Text.isBlank ' ' = true ∧ Text.isBlank '+' = false := by decide
        simp [significant, Token.isBlank, blanks, Operator.mark]
      rw [tokensNext, List.foldl_cons, ← List.cons_append, ← List.append_assoc]
      exact next
  have whole := more _ _ (.term (means x))
  rw [sumTokens, significant, List.filter_append]
  exact whole

/-- The text of a sum yields the sum of what its terms mean. -/
theorem yields_sum {α : Type} (text : α → String) (tokensOf : α → List Token) (v : α → V)
    (spelled : ∀ y, (text y).toList = (tokensOf y).flatMap Token.chars)
    (cut : ∀ y, isCut (tokensOf y) = true)
    (means : ∀ y, A.Means σ .product (significant (tokensOf y)) [v y]) (x : α) (xs : List α) :
    A.Yields σ (sum ((x :: xs).map text))
      (xs.foldl (fun acc y => A.operate .add acc (v y)) (v x)) := by
  refine Arithmetic.yields_of_means (sumTokens tokensOf x xs) ?_ (isCut_sumTokens cut x xs)
    (means_sumTokens means x xs)
  rw [List.map_cons, toList_sum, sumTokens, List.flatMap_append, spelled, List.flatMap_map,
    List.flatMap_assoc]
  congr 1
  refine congrArg (List.flatMap · xs) (funext fun y => ?_)
  rw [spelled]
  simp [Token.chars]

end Sums

/-! ## The objects of the measure -/

/-- A zone with its two variables. -/
structure Zone where
  temperature : Sensor
  volume : InternalVariable

/-- The objects of a zone. -/
def Zone.declarations (x : Zone) : List Declaration :=
  [.sensor x.temperature, .internal x.volume]

/-- The variables of a zone with this number. -/
structure Zone.Of (zone : String × Nat) (x : Zone) : Prop where
  temperature : x.temperature.name.text = temperatureName zone.2
  temperatureKey : x.temperature.key = zone.1
  temperatureOutput : x.temperature.output = "Zone Mean Air Temperature"
  volume : x.volume.name.text = volumeName zone.2
  volumeKey : x.volume.key = zone.1
  volumeType : x.volume.dataType = "Zone Air Volume"

theorem exists_zones {zones : List (String × Nat)} {ds : List Declaration}
    (h : AllOk (zones.flatMap fun z => zoneScript z.1 z.2) ds) :
    ∃ xs : List Zone, List.Forall₂ Zone.Of zones xs ∧ xs.flatMap Zone.declarations = ds := by
  obtain ⟨parts, hparts, rfl⟩ := allOk_flatMap_iff.1 h
  clear h
  induction hparts with
  | nil => exact ⟨[], .nil, rfl⟩
  | cons first _ ih =>
    obtain ⟨xs, of, rest⟩ := ih
    obtain ⟨sensors, internals, hs, hi, rfl⟩ := allOk_append_iff.1 first
    obtain ⟨s, temperature, rfl⟩ := Script.allOk_sensor_iff.1 hs
    obtain ⟨i, volume, rfl⟩ := Script.allOk_internal_iff.1 hi
    refine ⟨⟨⟨s, _, _⟩, ⟨i, _, _⟩⟩ :: xs, .cons ⟨temperature, rfl, rfl, volume, rfl, rfl⟩ of, ?_⟩
    rw [List.flatMap_cons, rest]
    rfl

/-- Of the objects of zones, those of each kind. -/
theorem filter_declarations (zones : List Zone) :
    (zones.flatMap Zone.declarations).filter (fun d => d.kind = .sensor) =
      zones.map (fun x => .sensor x.temperature) ∧
    (zones.flatMap Zone.declarations).filter (fun d => d.kind = .internal) =
      zones.map (fun x => .internal x.volume) ∧
    ∀ k, k ≠ .sensor → k ≠ .internal →
      (zones.flatMap Zone.declarations).filter (fun d => d.kind = k) = [] := by
  induction zones with
  | nil => simp
  | cons x zones ih =>
    obtain ⟨sensors, internals, others⟩ := ih
    simp only [List.flatMap_cons, List.filter_append, sensors, internals]
    refine ⟨rfl, rfl, fun k hs hi => ?_⟩
    rw [others k hs hi, List.append_nil, List.filter_eq_nil_iff]
    intro d hd
    simp only [Zone.declarations, List.mem_cons, List.not_mem_nil, or_false] at hd
    rcases hd with rfl | rfl
    · exact hs.symm ∘ of_decide_eq_true
    · exact hi.symm ∘ of_decide_eq_true

/-- The model lists the variables of the zones in order, and one global. -/
theorem exists_zones_of_run {z : ZoneAverage} {a : Numbering} {m : Model}
    (h : (z.script a).run .empty = .ok m) :
    (∃ zones, List.Forall₂ Zone.Of (z.zones.zipIdx a.next) zones ∧
      m.sensors = zones.map Zone.temperature ∧ m.internals = zones.map Zone.volume) ∧
    ∃ g, m.globals = [g] ∧ g.text = z.average := by
  obtain ⟨ds, all, declared⟩ := Script.run_eq_ok_iff.1 h
  obtain ⟨-, shape⟩ := outline h
  rw [shape] at all
  obtain ⟨zoneObjects, _, hzones, h5, rfl⟩ := allOk_append_iff.1 all
  obtain ⟨globals, _, hglobal, h4, rfl⟩ := allOk_append_iff.1 h5
  obtain ⟨programs, _, hprogram, h3, rfl⟩ := allOk_append_iff.1 h4
  obtain ⟨managers, _, hmanager, h2, rfl⟩ := allOk_append_iff.1 h3
  obtain ⟨outputs, requests, houtput, hrequest, rfl⟩ := allOk_append_iff.1 h2
  obtain ⟨zones, zonesOf, rfl⟩ := exists_zones hzones
  obtain ⟨average, haverage, rfl⟩ := Script.allOk_global_iff.1 hglobal
  obtain ⟨n, code, hn, hcode, rfl⟩ := isProgram_programDeclaration _ hprogram
  obtain ⟨managed, hmanaged, rfl⟩ := Script.allOk_manager_iff.1 hmanager
  obtain ⟨source, hsource, rfl⟩ := Script.allOk_output_iff.1 houtput
  obtain ⟨r, hr, rfl⟩ := Script.allOk_one_iff.1 hrequest
  cases hr
  obtain ⟨-, -, -, rfl⟩ := declareAll_eq_ok_iff.1 declared
  -- the zones have all sensors and all internal variables, and no global
  obtain ⟨sensors, internals, others⟩ := filter_declarations zones
  have listed (k : ObjectKind) (hk : k ≠ .request) := foldl_push_objects empty
    (zones.flatMap Zone.declarations ++ ([.global average] ++ ([.program ⟨n, code⟩] ++
      ([.manager ⟨z.manager, .endOfZoneTimestepBeforeZoneReporting, [managed]⟩] ++
        ([.output ⟨z.outputName, source, .averaged, .zoneTimestep, some "C"⟩] ++
          [.request ⟨Script.everyKey, z.outputName, .timestep⟩]))))) hk
  simp only [List.filter_append, objects_empty, List.nil_append] at listed
  refine ⟨⟨zones, zonesOf, ?_, ?_⟩, average, ?_, haverage⟩
  · have own := listed .sensor (by decide)
    rw [sensors] at own
    refine List.map_injective_iff.2 (fun _ _ => Declaration.sensor.inj) (own.trans ?_)
    simp [Declaration.kind]
  · have own := listed .internal (by decide)
    rw [internals] at own
    refine List.map_injective_iff.2 (fun _ _ => Declaration.internal.inj) (own.trans ?_)
    simp [Declaration.kind]
  · have own := listed .global (by decide)
    rw [others .global (by decide) (by decide)] at own
    exact List.map_injective_iff.2 (fun _ _ => Declaration.global.inj) own

/-! ## The program -/

/-- Adding terms one by one to the first is their sum. -/
theorem foldl_add_eq_sum {α M : Type} [AddMonoid M] (v : α → M) (x : α) (xs : List α) :
    xs.foldl (fun acc y => acc + v y) (v x) = ((x :: xs).map v).sum := by
  have more (w : M) : xs.foldl (fun acc y => acc + v y) w = w + (xs.map v).sum := by
    induction xs generalizing w with
    | nil => simp
    | cons x xs ih => rw [List.foldl_cons, ih, List.map_cons, List.sum_cons, add_assoc]
  rw [more, List.map_cons, List.sum_cons]

section Program

variable {K : Type} [Field K] [LinearOrder K] {calls : String → List K → K}
  {test : Expression → Store K → Bool}

/-- The key of the temperature of zone `n`. -/
def temperatureKey (n : Nat) : String := Text.asciiUpper (temperatureName n)

/-- The key of the volume of zone `n`. -/
def volumeKey (n : Nat) : String := Text.asciiUpper (volumeName n)

/-- The sum of the temperatures, weighted by the volumes. -/
def numerator (σ : Store K) (numbers : List Nat) : K :=
  (numbers.map fun n => σ (temperatureKey n) * σ (volumeKey n)).sum

/-- The sum of the volumes. -/
def denominator (σ : Store K) (numbers : List Nat) : K :=
  (numbers.map fun n => σ (volumeKey n)).sum

/-- The variables of zones are neither null nor one of the two sums. -/
theorem temperatureKey_ne (n : Nat) {text : String} (h : text.toList.head? ≠ some 'T') :
    temperatureKey n ≠ text := by
  rintro rfl
  have parts : temperatureName n = "T" ++ toString n := rfl
  exact h (by simp [temperatureKey, parts])

theorem volumeKey_ne (n : Nat) {text : String} (h : text.toList.head? ≠ some 'Z') :
    volumeKey n ≠ text := by
  rintro rfl
  have parts : volumeName n = "Zn" ++ toString n ++ "vol" := rfl
  exact h (by simp [volumeKey, parts])

theorem yields_numerator (σ : Store K) {numbers : List Nat} (some : numbers ≠ []) :
    (Arithmetic.exact calls test).Yields σ (sum (numbers.map weighted)) (numerator σ numbers) := by
  obtain ⟨n, ns, rfl⟩ := List.exists_cons_of_ne_nil some
  have means (n : Nat) : (Arithmetic.exact calls test).Means σ .product
      [.name (temperatureName n).toList, .other '*', .name (volumeName n).toList]
      [σ (temperatureKey n) * σ (volumeKey n)] :=
    .product .multiply rfl
      (.single (.alone (Arithmetic.means_word (temperatureKey_ne n (by decide)))))
      (.alone (Arithmetic.means_word (volumeKey_ne n (by decide))))
  have terms := yields_sum weighted
    (fun n => [.name (temperatureName n).toList, .other '*', .name (volumeName n).toList])
    (fun n => σ (temperatureKey n) * σ (volumeKey n))
    (fun n => by simp [weighted, Token.chars])
    (fun n => by
      have times : isMark '*' = true := by decide
      simp [isCut, startsMark, isWord_temperatureName, isWord_volumeName, times])
    means n ns
  rw [numerator, ← foldl_add_eq_sum]
  exact terms

theorem yields_denominator (σ : Store K) {numbers : List Nat} (some : numbers ≠ []) :
    (Arithmetic.exact calls test).Yields σ (sum (numbers.map volumeName))
      (denominator σ numbers) := by
  obtain ⟨n, ns, rfl⟩ := List.exists_cons_of_ne_nil some
  have means (n : Nat) : (Arithmetic.exact calls test).Means σ .product
      [.name (volumeName n).toList] [σ (volumeKey n)] :=
    .single (.alone (Arithmetic.means_word (volumeKey_ne n (by decide))))
  have terms := yields_sum volumeName (fun n => [.name (volumeName n).toList])
    (fun n => σ (volumeKey n)) (fun n => by simp [Token.chars])
    (fun n => by simp [isCut, startsMark, isWord_volumeName]) means n ns
  rw [denominator, ← foldl_add_eq_sum]
  exact terms

/-- The program puts the mean into the global, whatever the global is called. -/
theorem takes_body (calls : String → List K → K) (test : Expression → Store K → Bool)
    (call : Name → Store K → Option (Store K)) (z : ZoneAverage) {numbers : List Nat}
    (some : numbers ≠ []) (σ : Store K) :
    ∃ τ, (z.body numbers).Takes (Arithmetic.exact calls test).evaluation.machine call [] σ τ ∧
      τ (Text.asciiUpper z.average) = numerator σ numbers / denominator σ numbers := by
  let σ₁ := Function.update σ (Text.asciiUpper "SumNumerator") (numerator σ numbers)
  let σ₂ := Function.update σ₁ (Text.asciiUpper "SumDenominator") (denominator σ₁ numbers)
  -- the first sum is none of the volumes
  have volumes : denominator σ₁ numbers = denominator σ numbers := by
    refine congrArg List.sum (List.map_congr_left fun n _ => ?_)
    exact Function.update_of_ne (volumeKey_ne n (by decide)) _ _
  have sums : σ₂ (Text.asciiUpper "SumNumerator") = numerator σ numbers ∧
      σ₂ (Text.asciiUpper "SumDenominator") = denominator σ numbers := by
    have apart : Text.asciiUpper "SumNumerator" ≠ Text.asciiUpper "SumDenominator" := by decide
    exact ⟨(Function.update_of_ne apart _ _).trans (Function.update_self _ _ _),
      (Function.update_self _ _ _).trans volumes⟩
  have ratio : (Arithmetic.exact calls test).Yields σ₂ "SumNumerator / SumDenominator"
      (σ₂ (Text.asciiUpper "SumNumerator") / σ₂ (Text.asciiUpper "SumDenominator")) :=
    Arithmetic.yields_of_means
      [.name "SumNumerator".toList, .other ' ', .other '/', .other ' ',
        .name "SumDenominator".toList] (by decide) (by decide)
      (.term (.product .divide rfl (.single (.alone (Arithmetic.means_word (by decide))))
        (.alone (Arithmetic.means_word (by decide)))))
  refine ⟨_, ((Draft.takes_set rfl (yields_numerator σ some)).append
    (Draft.takes_set rfl (yields_denominator σ₁ some))).append (Draft.takes_set rfl ratio), ?_⟩
  rw [Function.update_self, sums.1, sums.2]

end Program

/-! ## The measure -/

/-- What the variables of the zones have in common with the zones. -/
theorem map_of_zones {α : Type} {pairs : List (String × Nat)} {zones : List Zone}
    (h : List.Forall₂ Zone.Of pairs zones) {f : Zone → α} {g : String × Nat → α}
    (same : ∀ p x, Zone.Of p x → f x = g p) : zones.map f = pairs.map g := by
  induction h with
  | nil => rfl
  | cons first _ ih => rw [List.map_cons, List.map_cons, same _ _ first, ih]

/-- The sensors and the internal variables are those of the zones, in order. -/
theorem listed_of_zones {zones : List String} {first : Nat} {xs : List Zone}
    (h : List.Forall₂ Zone.Of (zones.zipIdx first) xs) :
    (xs.map Zone.temperature).map (fun s => (s.key, s.output)) =
        zones.map (fun zone => (zone, "Zone Mean Air Temperature")) ∧
      (xs.map Zone.volume).map (fun v => (v.key, v.dataType)) =
        zones.map fun zone => (zone, "Zone Air Volume") := by
  have names : (zones.zipIdx first).map Prod.fst = zones := List.zipIdx_map_fst ..
  constructor
  · rw [List.map_map, map_of_zones h (g := fun p => (p.1, "Zone Mean Air Temperature"))
      fun p x of => by simp [of.temperatureKey, of.temperatureOutput]]
    conv_rhs => rw [← names, List.map_map]
    rfl
  · rw [List.map_map, map_of_zones h (g := fun p => (p.1, "Zone Air Volume"))
      fun p x of => by simp [of.volumeKey, of.volumeType]]
    conv_rhs => rw [← names, List.map_map]
    rfl

/-- The two sums of the program are over the sensors and the internal variables. -/
theorem sums_of_zones {K : Type} [Field K] {pairs : List (String × Nat)} {xs : List Zone}
    (h : List.Forall₂ Zone.Of pairs xs) (σ : Store K) :
    numerator σ (pairs.map Prod.snd) = (List.zipWith (fun s v => σ s.name.key * σ v.name.key)
        (xs.map Zone.temperature) (xs.map Zone.volume)).sum ∧
      denominator σ (pairs.map Prod.snd) =
        ((xs.map Zone.volume).map fun v => σ v.name.key).sum := by
  constructor
  · rw [List.zipWith_map, List.zipWith_self,
      map_of_zones h (g := fun p => σ (temperatureKey p.2) * σ (volumeKey p.2))
        fun p x of => by simp [Name.key, of.temperature, of.volume, temperatureKey, volumeKey],
      numerator, List.map_map]
    rfl
  · rw [List.map_map, map_of_zones h (g := fun p => σ (volumeKey p.2))
      fun p x of => by simp [Name.key, of.volume, volumeKey], denominator, List.map_map]
    rfl

/-- The measure reads, for each zone in order, one temperature and one volume of that zone, and
    its program leaves the mean of the temperatures weighted by the volumes in the global. -/
theorem runProgram_average {K : Type} [Field K] [LinearOrder K] {z : ZoneAverage}
    {a next : Numbering} {m : Model}
    (built : (Measure.zoneAverageTemperature z).build a = .ok (m, next))
    (calls : String → List K → K) (test : Expression → Store K → Bool) (depth : Nat)
    (σ : Store K) :
    m.sensors.map (fun s => (s.key, s.output)) =
        z.zones.map (fun zone => (zone, "Zone Mean Air Temperature")) ∧
      m.internals.map (fun v => (v.key, v.dataType)) =
        z.zones.map (fun zone => (zone, "Zone Air Volume")) ∧
      (∃ g, m.globals = [g] ∧ g.text = z.average) ∧
      ∃ τ, m.runProgram (Arithmetic.exact calls test).evaluation.machine (depth + 1) z.program σ =
          some τ ∧
        τ (Text.asciiUpper z.average) =
          (List.zipWith (fun s v => σ s.name.key * σ v.name.key) m.sensors m.internals).sum /
            (m.internals.map fun v => σ v.name.key).sum := by
  have run : (z.script a).run .empty = .ok m := (build_eq_ok_iff.1 built).1
  obtain ⟨some, shape⟩ := outline run
  obtain ⟨⟨zones, zonesOf, sensors, internals⟩, average⟩ := exists_zones_of_run run
  obtain ⟨temperatures, volumes⟩ := listed_of_zones zonesOf
  obtain ⟨weighted, total⟩ := sums_of_zones zonesOf σ
  rw [List.zipIdx_map_snd] at weighted total
  rw [← List.append_assoc] at shape
  obtain ⟨p, programs, named, body⟩ := Script.exists_programs_eq run isProgram_programDeclaration
    shape (by simp [zoneScript]) (by simp)
  have nonempty : List.range' a.next z.zones.length ≠ [] := by
    simpa [List.range'_eq_nil_iff] using some
  obtain ⟨τ, takes, mean⟩ := takes_body calls test
    (m.call (Arithmetic.exact calls test).evaluation.machine depth) z nonempty σ
  rw [sensors, internals]
  refine ⟨temperatures, volumes, average, τ, ?_, ?_⟩
  · rw [runProgram_of_programs programs named]
    exact takes.run body
  · rw [mean, weighted, total]

/-- Two zones numbered from nine, and an average with the name of one of the sums. -/
def twoZones : Measure :=
  .zoneAverageTemperature ⟨["Core", "Attic"], "Mean", "M", "sumdenominator", "O"⟩

/-- The readings of two zones: 20 degrees in 200 cubic metres, 26 degrees in 100. -/
def twoReadings : Store ℚ := fun k =>
  if k = "T9" then 20 else if k = "T10" then 26 else if k = "ZN9VOL" then 200
  else if k = "ZN10VOL" then 100 else 0

/-- The mean of the two zones is 22 degrees. -/
theorem runProgram_average_twoZones : ∃ m next τ,
    twoZones.build ⟨9, by decide, by decide⟩ = .ok (m, next) ∧
      m.runProgram (Arithmetic.exact (fun _ _ => 0) fun _ _ => false).evaluation.machine 1 "Mean"
        twoReadings = some τ ∧
      τ (Text.asciiUpper "sumdenominator") = 22 := by
  have keys : (twoZones.build ⟨9, by decide, by decide⟩).toOption.map (fun r =>
      (r.1.sensors.map (·.name.key), r.1.internals.map (·.name.key))) =
        some (["T9", "T10"], ["ZN9VOL", "ZN10VOL"]) := by decide +kernel
  obtain ⟨⟨m, next⟩, builds, same⟩ := Option.map_eq_some_iff.1 keys
  have built := eq_ok_of_toOption builds
  obtain ⟨temperatures, volumes⟩ := Prod.mk.inj same
  obtain ⟨-, -, -, τ, ran, mean⟩ :=
    runProgram_average built (fun _ _ => (0 : ℚ)) (fun _ _ => false) 0 twoReadings
  refine ⟨m, next, τ, built, ran, ?_⟩
  have weights : List.zipWith (fun s v => twoReadings s.name.key * twoReadings v.name.key)
      m.sensors m.internals = List.zipWith (fun t v => twoReadings t * twoReadings v)
        (m.sensors.map (·.name.key)) (m.internals.map (·.name.key)) := by
    rw [List.zipWith_map]
  have sizes : m.internals.map (fun v => twoReadings v.name.key) =
      (m.internals.map (·.name.key)).map twoReadings := by
    rw [List.map_map]
    rfl
  rw [mean, weights, sizes, temperatures, volumes]
  decide +kernel

end BuildingControl.Measure.ZoneAverage
