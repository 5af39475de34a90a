/-
  BuildingControl.Proofs.Coding.Measure

  Measures are decoded as they were encoded, if all of their numbers are kept.
-/
import BuildingControl.Coding.Measure
import BuildingControl.Proofs.Coding.Component

namespace BuildingControl

/-- The numbers among the arguments of a measure. -/
def Measure.numbers : Measure → List Float
  | .thermochromicWindow m => m.states.map (·.upTo)
  | .condenserLoopOverride _ => []
  | .comfortHalt m => [m.minVote, m.maxVote, m.trendHours, m.timestepMinutes]
  | .discretePackageSizing _ => []
  | .zoneAverageTemperature _ => []
  | .curveResultOverride m => m.units.flatMap (·.coefficients.toList) ++ m.alternate.toList
  | .vrfModeOverride m => [m.partLoadRatio]

namespace Coding

open Document Document.Source BuildingControl.Measure Model

variable {ν : Type} {admits : Float → Prop} {keeps : Float → Bool} {render : Value → ν}

section Arguments

variable [Source ν]

/-! ## The parts of measures -/

theorem texts?_render (F : Faithful admits keeps render) (texts : List String) :
    texts? (render (textsValue texts)) = some texts :=
  F.listOf_some fun s _ => F.text s

theorem windowState?_render (F : Faithful admits keeps render) {s : WindowState}
    (h : admits s.upTo) :
    windowState? (render (windowStateValue s)) = Option.guard (fun s => keeps s.upTo) s := by
  have r := F.fields ["up_to_c", "construction"]
    [("up_to_c", .real s.upTo), ("construction", .text s.construction)] (by simp) (by simp)
  cases hk : keeps s.upTo <;>
    simp [windowState?, windowStateValue, r, F.real _ h, F.text, Option.guard_apply, hk]

theorem condenserLoop?_render (F : Faithful admits keeps render) (l : CondenserLoop) :
    condenserLoop? (render (condenserLoopValue l)) = some l := by
  have r := F.fields ["name", "pump", "pump_speed"]
    [("name", .text l.name), ("pump", .text l.pump), ("pump_speed", choiceValue l.pumpSpeed)]
    (by simp) (by simp)
  simp [condenserLoop?, condenserLoopValue, r, F.text, choice?_render F]

theorem biquadratic?_render (F : Faithful admits keeps render) {q : Biquadratic}
    (h : ∀ x ∈ q.toList, admits x) :
    biquadratic? (render (biquadraticValue q)) =
      Option.guard (fun q => q.toList.all keeps) q := by
  have numbers := F.listOf_guard fun x hx => F.real x (h x hx)
  rw [biquadratic?, biquadraticValue, numbers]
  exact guard_bind _ _ _

theorem curveUnit?_render (F : Faithful admits keeps render) {u : CurveUnit}
    (h : ∀ x ∈ u.coefficients.toList, admits x) :
    curveUnit? (render (curveUnitValue u)) =
      Option.guard (fun u => u.coefficients.toList.all keeps) u := by
  have r := F.fields ["heat_pump", "curve", "coefficients"]
    [("heat_pump", .text u.heatPump), ("curve", .text u.curve),
     ("coefficients", biquadraticValue u.coefficients)] (by simp) (by simp)
  rw [Option.guard_apply]
  simp [curveUnit?, curveUnitValue, r, F.text, biquadratic?_render F h, guard_bind]

theorem vrfUnit?_render (F : Faithful admits keeps render) (u : VrfUnit) :
    vrfUnit? (render (vrfUnitValue u)) = some u := by
  have r := F.fields ["name", "terminals"]
    [("name", .text u.name), ("terminals", textsValue u.terminals)] (by simp) (by simp)
  simp [vrfUnit?, vrfUnitValue, r, F.text, texts?_render F]

/-! ## Arguments -/

theorem thermochromic?_render (F : Faithful admits keeps render) {m : Thermochromic}
    (h : ∀ s ∈ m.states, admits s.upTo) :
    thermochromic? (render (.object (thermochromicFields m))) =
      Option.guard (fun m => m.states.all fun s => keeps s.upTo) m := by
  have r := F.fields ["window", "states", "default_construction", "calling_manager"]
    (thermochromicFields m) (by simp [thermochromicFields]) (by simp [thermochromicFields])
  have states := F.listOf_guard fun s hs => windowState?_render F (h s hs)
  rw [Option.guard_apply, thermochromic?, r]
  simp [thermochromicFields, F.text, states, guard_bind]

theorem condenser?_render (F : Faithful admits keeps render) (m : Condenser) :
    condenser? (render (.object (condenserFields m))) = some m := by
  have r := F.fields ["loops", "threshold", "program", "calling_manager"]
    (condenserFields m) (by simp [condenserFields]) (by simp [condenserFields])
  have loops := F.listOf_some fun l (_ : l ∈ m.loops) => condenserLoop?_render F l
  rw [condenser?, r]
  simp [condenserFields, F.text, loops]

theorem comfort?_render (F : Faithful admits keeps render) {m : Comfort}
    (h : ∀ x ∈ (Measure.comfortHalt m).numbers, admits x) :
    comfort? (render (.object (comfortFields m))) =
      Option.guard (fun m => (Measure.comfortHalt m).numbers.all keeps) m := by
  have r := F.fields ["zones", "min_pmv", "max_pmv", "trend_hours", "timestep_minutes"]
    (comfortFields m) (by simp [comfortFields]) (by simp [comfortFields])
  simp only [Measure.numbers, List.forall_mem_cons] at h
  obtain ⟨low, high, hours, minutes, -⟩ := h
  rw [Option.guard_apply, comfort?, r]
  simp [comfortFields, texts?_render F, F.real _ low, F.real _ high, F.real _ hours,
    F.real _ minutes, guard_bind, Measure.numbers, ite_and]

theorem sizing?_render (F : Faithful admits keeps render) (m : Sizing) :
    sizing? (render (.object (sizingFields m))) = some m := by
  have r := F.fields ["air_loops", "package_sizes", "program", "calling_manager"]
    (sizingFields m) (by simp [sizingFields]) (by simp [sizingFields])
  rw [sizing?, r]
  simp [sizingFields, F.text, texts?_render F]

theorem zoneAverage?_render (F : Faithful admits keeps render) (m : ZoneAverage) :
    zoneAverage? (render (.object (zoneAverageFields m))) = some m := by
  have r := F.fields ["zones", "program", "calling_manager", "average", "output_name"]
    (zoneAverageFields m) (by simp [zoneAverageFields]) (by simp [zoneAverageFields])
  rw [zoneAverage?, r]
  simp [zoneAverageFields, F.text, texts?_render F]

theorem curve?_render (F : Faithful admits keeps render) {m : Curve}
    (h : ∀ x ∈ (Measure.curveResultOverride m).numbers, admits x) :
    curve? (render (.object (curveFields m))) =
      Option.guard (fun m => (Measure.curveResultOverride m).numbers.all keeps) m := by
  have r := F.fields ["units", "threshold", "alternate", "program", "calling_manager"]
    (curveFields m) (by simp [curveFields]) (by simp [curveFields])
  simp only [Measure.numbers, List.forall_mem_append, List.forall_mem_flatMap] at h
  have units := F.listOf_guard fun u hu => curveUnit?_render F (h.1 u hu)
  have alternate := biquadratic?_render F h.2
  rw [Option.guard_apply, curve?, r]
  simp [curveFields, F.text, units, alternate, guard_bind, Measure.numbers, ite_and]

theorem vrf?_render (F : Faithful admits keeps render) {m : Vrf} (h : admits m.partLoadRatio) :
    vrf? (render (.object (vrfFields m))) = Option.guard (fun m => keeps m.partLoadRatio) m := by
  have r := F.fields ["units", "part_load_ratio", "init_program", "init_calling_manager", "program",
    "calling_manager"] (vrfFields m) (by simp [vrfFields]) (by simp [vrfFields])
  have units := F.listOf_some fun u (_ : u ∈ m.units) => vrfUnit?_render F u
  rw [Option.guard_apply, vrf?, r]
  simp [vrfFields, F.text, units, F.real _ h, guard_bind]

end Arguments

/-! ## Measures -/

theorem measure_not_mem_measureFields (m : Measure) :
    "measure" ∉ (measureFields m).map Prod.fst := by
  cases m <;> simp [measureFields, thermochromicFields, condenserFields, comfortFields,
    sizingFields, zoneAverageFields, curveFields, vrfFields]

/-- The arguments of a measure are nested at most four deep: units with lists of coefficients. -/
theorem fits_measureFields {m : Measure} (h : ∀ x ∈ m.numbers, admits x) :
    Value.Fits admits 4 (.object (measureFields m)) := by
  cases m with
  | thermochromicWindow m =>
    simpa [measureFields, thermochromicFields, windowStateValue, Value.Fits, Measure.numbers] using h
  | condenserLoopOverride m =>
    simp [measureFields, condenserFields, condenserLoopValue, choiceValue, Value.Fits]
  | comfortHalt m =>
    simpa [measureFields, comfortFields, textsValue, Value.Fits, Measure.numbers] using h
  | discretePackageSizing m => simp [measureFields, sizingFields, textsValue, Value.Fits]
  | zoneAverageTemperature m => simp [measureFields, zoneAverageFields, textsValue, Value.Fits]
  | curveResultOverride m =>
    simp only [Measure.numbers, List.forall_mem_append, List.forall_mem_flatMap] at h
    simpa [measureFields, curveFields, curveUnitValue, biquadraticValue, Value.Fits] using h
  | vrfModeOverride m =>
    simpa [measureFields, vrfFields, vrfUnitValue, textsValue, Value.Fits, Measure.numbers] using h

/-- Inside a tagged object all numbers are read back that are kept. -/
theorem measureOfTag?_content (m : Measure) :
    measureOfTag? (measureTag m.kind) (Value.content keeps (.object (measureFields m))) =
      Option.guard (fun m => m.numbers.all keeps) m := by
  have F : Faithful (fun _ => True) keeps (Value.content keeps) := faithful_content
  cases m with
  | thermochromicWindow m =>
    show (thermochromic? (Value.content keeps (.object (thermochromicFields m)))).map _ = _
    rw [thermochromic?_render F fun _ _ => trivial, Option.map_guard]
    simp [Option.guard_apply, Measure.numbers]
  | condenserLoopOverride m =>
    show (condenser? (Value.content keeps (.object (condenserFields m)))).map _ = _
    rw [condenser?_render F]
    rfl
  | comfortHalt m =>
    show (comfort? (Value.content keeps (.object (comfortFields m)))).map _ = _
    rw [comfort?_render F fun _ _ => trivial]
    simp [Option.guard_apply]
  | discretePackageSizing m =>
    show (sizing? (Value.content keeps (.object (sizingFields m)))).map _ = _
    rw [sizing?_render F]
    rfl
  | zoneAverageTemperature m =>
    show (zoneAverage? (Value.content keeps (.object (zoneAverageFields m)))).map _ = _
    rw [zoneAverage?_render F]
    rfl
  | curveResultOverride m =>
    show (curve? (Value.content keeps (.object (curveFields m)))).map _ = _
    rw [curve?_render F fun _ _ => trivial]
    simp [Option.guard_apply]
  | vrfModeOverride m =>
    show (vrf? (Value.content keeps (.object (vrfFields m)))).map _ = _
    rw [vrf?_render F trivial]
    simp [Option.guard_apply, Measure.numbers]

theorem measure?_render [TaggedSource ν] (T : FaithfulTags admits keeps render) {m : Measure}
    (h : ∀ x ∈ m.numbers, admits x) :
    measure? (render (measureValue m)) = Option.guard (fun m => m.numbers.all keeps) m := by
  rw [measure?, measureValue, T.tagged 4 _ _ _ (measure_not_mem_measureFields m)
    (fits_measureFields h), Option.bind_some]
  exact measureOfTag?_content m

end Coding

end BuildingControl
