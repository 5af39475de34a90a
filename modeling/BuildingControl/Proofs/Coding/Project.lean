/-
  BuildingControl.Proofs.Coding.Project

  Projects are decoded as they were encoded, if all of their numbers are kept;
  and what is decoded has numbers of timesteps that can be encoded.
-/
import BuildingControl.Coding.Project
import BuildingControl.Proofs.Coding.Measure
import BuildingControl.Proofs.Document.Decoding

namespace BuildingControl

open Project

/-- The numbers of a project: the boundaries of its tables and the numbers of its measures. -/
def Project.numbers (p : Project) : List Float :=
  p.tables.flatMap (fun t => t.rules.map (·.boundary)) ++ p.measures.flatMap Measure.numbers

namespace Coding

open Document Document.Source Erl Model

variable {ν : Type} {admits : Float → Prop} {keeps : Float → Bool} {render : Value → ν}

section Entries

variable [Source ν]

/-! ## Declarations -/

theorem sensor?_render (F : Faithful admits keeps render) (s : SensorEntry) :
    sensor? (render (sensorValue s)) = some s := by
  have r := F.fields ["name", "key", "output_variable"]
    [("name", .text s.name), ("key", .text s.key), ("output_variable", .text s.output)]
    (by simp) (by simp)
  simp [sensor?, sensorValue, r, F.text]

theorem trend?_render (F : Faithful admits keeps render) {t : TrendEntry}
    (h : t.timesteps < countLimit) : trend? (render (trendValue t)) = some t := by
  have r := F.fields ["name", "source", "timesteps"]
    [("name", .text t.name), ("source", .text t.source), ("timesteps", .int t.timesteps)]
    (by simp) (by simp)
  simp [trend?, trendValue, r, F.text, F.count _ h]

theorem internal?_render (F : Faithful admits keeps render) (i : InternalEntry) :
    internal? (render (internalValue i)) = some i := by
  have r := F.fields ["name", "key", "data_type"]
    [("name", .text i.name), ("key", .text i.key), ("data_type", .text i.dataType)]
    (by simp) (by simp)
  simp [internal?, internalValue, r, F.text]

theorem output?_render (F : Faithful admits keeps render) (o : OutputEntry) :
    output? (render (outputValue o)) = some o := by
  have r := F.fields ["name", "variable", "data", "frequency", "units"]
    ([("name", .text o.name), ("variable", .text o.source), ("data", choiceValue o.data),
      ("frequency", choiceValue o.frequency)] ++ optionField "units" .text o.units)
    (by cases o.units <;> simp [optionField]) (by cases o.units <;> simp [optionField])
  obtain ⟨name, source, data, frequency, units⟩ := o
  rw [outputValue, output?, r]
  cases units <;> simp [optionField, F.text, F.text_present, choice?_render F]

/-! ## Programs -/

theorem schedule?_render (F : Faithful admits keeps render) (s : Schedule) :
    schedule? (render (scheduleValue s)) = some s := by
  obtain ⟨point, manager⟩ := s
  have r := F.fields ["calling_point", "manager"]
    (("calling_point", choiceValue point) :: optionField "manager" .text manager)
    (by cases manager <;> simp [optionField]) (by cases manager <;> simp [optionField])
  rw [scheduleValue, schedule?, r]
  cases manager <;> simp [optionField, F.text, F.text_present, callingPoint?_render F]

theorem rule?_render (F : Faithful admits keeps render) {r : RuleText} (h : admits r.boundary) :
    rule? (render (ruleValue r)) = Option.guard (fun r => keeps r.boundary) r := by
  have fields := F.fields ["boundary", "variable", "expression"]
    [("boundary", .real r.boundary), ("variable", .text r.target), ("expression", .text r.value)]
    (by simp) (by simp)
  rw [Option.guard_apply, rule?, ruleValue, fields]
  simp [F.text, F.real _ h, guard_bind]

theorem action?_render (F : Faithful admits keeps render) (a : ActionText) :
    action? (render (actionValue a)) = some a := by
  have r := F.fields ["variable", "expression"]
    [("variable", .text a.target), ("expression", .text a.value)] (by simp) (by simp)
  simp [action?, actionValue, r, F.text]

theorem table?_render (F : Faithful admits keeps render) {t : TableEntry}
    (h : ∀ r ∈ t.rules, admits r.boundary) :
    table? (render (tableValue t)) =
      Option.guard (fun t => t.rules.all fun r => keeps r.boundary) t := by
  obtain ⟨name, subject, comparison, rules, otherwise, schedule⟩ := t
  have r := F.fields
    ["name", "comparison_variable", "comparison", "rules", "default", "schedule"]
    ([("name", .text name), ("comparison_variable", .text subject),
      ("comparison", choiceValue comparison), ("rules", .list (rules.map ruleValue)),
      ("default", actionValue otherwise)] ++ optionField "schedule" scheduleValue schedule)
    (by cases schedule <;> simp [optionField]) (by cases schedule <;> simp [optionField])
  have rows := F.listOf_guard fun r hr => rule?_render F (h r hr)
  rw [Option.guard_apply, tableValue, table?, r]
  cases schedule with
  | none => simp [optionField, F.text, choice?_render F, rows, action?_render F, guard_bind]
  | some s =>
    have present : absent? (render (scheduleValue s)) = some false := F.object_present _
    simp [optionField, F.text, choice?_render F, rows, action?_render F, present,
      schedule?_render F, guard_bind]

theorem onlyText?_render (F : Faithful admits keeps render) (name text : String) :
    onlyText? name (render (.object [(name, .text text)])) = some text := by
  have r := F.fields [name] [(name, .text text)] (by simp) (by simp)
  simp [onlyText?, r, F.text]

end Entries

theorem fits_lineFields (l : LineEntry) : Value.Fits admits 1 (.object (lineFields l)) := by
  cases l <;> simp [lineFields, Value.Fits]

theorem lineOfTag?_content (l : LineEntry) :
    lineOfTag? (lineTag l) (Value.content keeps (.object (lineFields l))) = some l := by
  have F : Faithful (fun _ => True) keeps (Value.content keeps) := faithful_content
  cases l with
  | set target value =>
    have r := F.fields ["target", "expr"] [("target", .text target), ("expr", .text value)]
      (by simp) (by simp)
    simp [lineTag, lineFields, lineOfTag?, r, F.text]
  | ifThen condition => simp [lineTag, lineFields, lineOfTag?, onlyText?_render F]
  | elseIf condition => simp [lineTag, lineFields, lineOfTag?, onlyText?_render F]
  | run subroutine => simp [lineTag, lineFields, lineOfTag?, onlyText?_render F]
  | _ => rfl

variable [TaggedSource ν]

theorem line?_render (T : FaithfulTags admits keeps render) (l : LineEntry) :
    line? (render (lineValue l)) = some l := by
  have untagged : "op" ∉ (lineFields l).map Prod.fst := by
    cases l <;> simp [lineFields]
  rw [line?, lineValue, T.tagged 1 _ _ _ untagged (fits_lineFields l), Option.bind_some]
  exact lineOfTag?_content l

theorem program?_render (T : FaithfulTags admits keeps render) (p : ProgramEntry) :
    program? (render (programValue p)) = some p := by
  obtain ⟨name, subroutine, lines, schedule⟩ := p
  have r := T.fields ["name", "subroutine", "lines", "schedule"]
    ([("name", .text name), ("subroutine", .bool subroutine), ("lines", .list (lines.map lineValue))]
      ++ optionField "schedule" scheduleValue schedule)
    (by cases schedule <;> simp [optionField]) (by cases schedule <;> simp [optionField])
  have body := T.listOf_some fun l (_ : l ∈ lines) => line?_render T l
  rw [programValue, program?, r]
  cases schedule with
  | none => simp [optionField, T.text, T.flag, body]
  | some s =>
    have present : absent? (render (scheduleValue s)) = some false := T.object_present _
    simp [optionField, T.text, T.flag, body, present, schedule?_render T.toFaithful]

theorem actuator?_render (T : FaithfulTags admits keeps render) (a : ActuatorEntry) :
    actuator? (render (actuatorValue a)) = some a := by
  have r := T.fields ["name", "component", "control"]
    [("name", .text a.name), ("component", componentValue a.component),
     ("control", .text a.control)] (by simp) (by simp)
  simp [actuator?, actuatorValue, r, T.text, component?_render T]

/-! ## Projects -/

theorem project?_render (T : FaithfulTags admits keeps render) {p : Project}
    (version : p.version < countLimit) (timesteps : ∀ t ∈ p.trends, t.timesteps < countLimit)
    (numbers : ∀ x ∈ p.numbers, admits x) :
    project? (render (projectValue p)) = Option.guard (fun p => p.numbers.all keeps) p := by
  have F : Faithful admits keeps render := T.toFaithful
  simp only [Project.numbers, List.forall_mem_append, List.forall_mem_flatMap, List.forall_mem_map]
    at numbers
  have sensors := F.listOf_some fun s (_ : s ∈ p.sensors) => sensor?_render F s
  have actuators := F.listOf_some fun a (_ : a ∈ p.actuators) => actuator?_render T a
  have trends := F.listOf_some fun t ht => trend?_render F (timesteps t ht)
  have internals := F.listOf_some fun i (_ : i ∈ p.internals) => internal?_render F i
  have outputs := F.listOf_some fun o (_ : o ∈ p.outputs) => output?_render F o
  have tables := F.listOf_guard fun t ht => table?_render F (numbers.1 t ht)
  have programs := F.listOf_some fun q (_ : q ∈ p.programs) => program?_render T q
  have measures := F.listOf_guard fun m hm => measure?_render T (numbers.2 m hm)
  have r := F.fields projectFields
    [("version", .int p.version), ("name", .text p.name), ("output", reportingValue p.reporting),
     ("sensors", .list (p.sensors.map sensorValue)),
     ("actuators", .list (p.actuators.map actuatorValue)),
     ("globals", textsValue p.globals),
     ("trends", .list (p.trends.map trendValue)),
     ("internal_variables", .list (p.internals.map internalValue)),
     ("output_variables", .list (p.outputs.map outputValue)),
     ("rule_programs", .list (p.tables.map tableValue)),
     ("programs", .list (p.programs.map programValue)),
     ("measures", .list (p.measures.map measureValue))]
    (by simp [projectFields]) (by simp)
  rw [Option.guard_apply, project?, projectValue, r]
  simp [F.text, F.count _ version, reporting?_render F, sensors, actuators, texts?_render F, trends,
    internals, outputs, tables, programs, measures, guard_bind, Project.numbers, ite_and]

/-! ## Depth and range -/

theorem fits_measureValue {m : Measure} (h : ∀ x ∈ m.numbers, admits x) :
    Value.Fits admits 4 (measureValue m) := by
  intro f hf
  rcases List.mem_cons.1 hf with rfl | hf
  · exact trivial
  · exact fits_measureFields h f hf

theorem fits_actuatorValue (a : ActuatorEntry) : Value.Fits admits 4 (actuatorValue a) := by
  obtain ⟨name, ⟨component, kind⟩, control⟩ := a
  cases kind <;>
    simp [actuatorValue, componentValue, kindValue, kindFields, choiceValue, Value.Fits]

theorem fits_outputValue (o : OutputEntry) : Value.Fits admits 4 (outputValue o) := by
  cases hu : o.units <;> simp [outputValue, choiceValue, optionField, hu, Value.Fits]

theorem fits_scheduleValue (s : Schedule) : Value.Fits admits 3 (scheduleValue s) := by
  cases hm : s.manager <;> simp [scheduleValue, choiceValue, optionField, hm, Value.Fits]

theorem fits_tableValue {t : TableEntry} (h : ∀ r ∈ t.rules, admits r.boundary) :
    Value.Fits admits 4 (tableValue t) := by
  cases hs : t.schedule <;>
    simpa [tableValue, choiceValue, ruleValue, actionValue, optionField, hs, Value.Fits,
      fits_scheduleValue] using h

theorem fits_programValue (q : ProgramEntry) : Value.Fits admits 4 (programValue q) := by
  have lines (l : LineEntry) : Value.Fits admits 2 (lineValue l) := by
    cases l <;> simp [lineValue, lineFields, Value.Fits]
  cases hs : q.schedule <;>
    simp [programValue, optionField, hs, Value.Fits, lines, fits_scheduleValue]

/-- The entries of a project are nested at most four deep. -/
theorem fits_projectValue {p : Project} (version : p.version < countLimit)
    (timesteps : ∀ t ∈ p.trends, t.timesteps < countLimit) (numbers : ∀ x ∈ p.numbers, admits x) :
    Value.Fits admits 6 (projectValue p) := by
  simp only [Project.numbers, List.forall_mem_append, List.forall_mem_flatMap, List.forall_mem_map]
    at numbers
  have measures : ∀ m ∈ p.measures, Value.Fits admits 4 (measureValue m) :=
    fun m hm => fits_measureValue (numbers.2 m hm)
  have tables : ∀ t ∈ p.tables, Value.Fits admits 4 (tableValue t) :=
    fun t ht => fits_tableValue (numbers.1 t ht)
  simpa [projectValue, Value.Fits, reportingValue, textsValue, choiceValue, sensorValue, trendValue,
    internalValue, fits_actuatorValue, fits_outputValue, fits_programValue] using
    ⟨version, timesteps, tables, measures⟩

theorem timesteps_lt_of_trend? {ν : Type} [Source ν] (counts : Counts ν) {v : ν} {t : TrendEntry}
    (h : trend? v = some t) : t.timesteps < countLimit := by
  simp only [trend?, Option.bind_eq_bind, Option.bind_eq_some_iff] at h
  obtain ⟨r, -, name, -, source, -, timesteps, decoded, same⟩ := h
  cases same
  obtain ⟨w, hw⟩ := exists_of_required decoded
  exact counts w _ hw

theorem timesteps_lt_of_project? {ν : Type} [TaggedSource ν] (counts : Counts ν) {v : ν}
    {p : Project} (h : project? v = some p) : ∀ t ∈ p.trends, t.timesteps < countLimit := by
  -- the fields in front of the trends, the trends, and the fields behind them
  obtain ⟨r, -, h⟩ := Option.bind_eq_some_iff.1 h
  obtain ⟨version, -, h⟩ := Option.bind_eq_some_iff.1 h
  obtain ⟨name, -, h⟩ := Option.bind_eq_some_iff.1 h
  obtain ⟨reporting, -, h⟩ := Option.bind_eq_some_iff.1 h
  obtain ⟨sensors, -, h⟩ := Option.bind_eq_some_iff.1 h
  obtain ⟨actuators, -, h⟩ := Option.bind_eq_some_iff.1 h
  obtain ⟨globals, -, h⟩ := Option.bind_eq_some_iff.1 h
  obtain ⟨trends, decoded, h⟩ := Option.bind_eq_some_iff.1 h
  obtain ⟨internals, -, h⟩ := Option.bind_eq_some_iff.1 h
  obtain ⟨outputs, -, h⟩ := Option.bind_eq_some_iff.1 h
  obtain ⟨tables, -, h⟩ := Option.bind_eq_some_iff.1 h
  obtain ⟨programs, -, h⟩ := Option.bind_eq_some_iff.1 h
  obtain ⟨measures, -, h⟩ := Option.bind_eq_some_iff.1 h
  cases h
  intro t ht
  rcases eq_or_exists_of_fallback decoded with rfl | ⟨w, hw⟩
  · cases ht
  · obtain ⟨u, hu⟩ := exists_of_mem_listOf hw ht
    exact timesteps_lt_of_trend? counts hu

end Coding

end BuildingControl
