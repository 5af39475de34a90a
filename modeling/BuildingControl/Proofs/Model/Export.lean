/-
  BuildingControl.Proofs.Model.Export

  The input file of a model, read back.  The records that a reader should get are
  spelled out kind by kind (`records`), and the reader gets exactly these from the
  file of every model that a session can come to (`readRecords_inputFile`): nothing
  is lost, nothing is added, and no text of the building can end a field.
-/
import BuildingControl.Proofs.Measure.Reachable
import BuildingControl.Proofs.Model.Keyword
import BuildingControl.Proofs.Model.Reading

namespace BuildingControl.Model

open Erl

/-! ## The records of a model -/

/-- The reporting settings. -/
def Reporting.record (r : Reporting) : Record where
  cls := "Output:EnergyManagementSystem"
  fields :=
    [word r.actuatorAvailability, word r.internalVariableAvailability, word r.debugLevel]

/-- A sensor. -/
def Sensor.record (s : Sensor) : Record where
  cls := "EnergyManagementSystem:Sensor"
  fields := [s.name.text, Text.trim s.key, Text.trim s.output]

/-- An actuator. -/
def Actuator.record (a : Actuator) : Record where
  cls := "EnergyManagementSystem:Actuator"
  fields := [a.name.text, Text.trim a.component, Text.trim a.componentType, Text.trim a.control]

/-- A global variable. -/
def globalRecord (name : Name) : Record where
  cls := "EnergyManagementSystem:GlobalVariable"
  fields := [name.text]

/-- A trend variable. -/
def Trend.record (t : Trend) : Record where
  cls := "EnergyManagementSystem:TrendVariable"
  fields := [t.name.text, t.source.text, toString t.timesteps]

/-- An internal variable. -/
def InternalVariable.record (v : InternalVariable) : Record where
  cls := "EnergyManagementSystem:InternalVariable"
  fields := [v.name.text, Text.trim v.key, Text.trim v.dataType]

/-- A handle on a construction. -/
def ConstructionIndex.record (c : ConstructionIndex) : Record where
  cls := "EnergyManagementSystem:ConstructionIndexVariable"
  fields := [c.name.text, Text.trim c.construction]

/-- A program or subroutine: its name and its lines, unchanged. -/
def Program.record (cls : String) (p : Program) : Record where
  cls := cls
  fields := p.name.text :: p.body.lines

/-- A calling manager. -/
def CallingManager.record (c : CallingManager) : Record where
  cls := "EnergyManagementSystem:ProgramCallingManager"
  fields := Text.trim c.name :: word c.callingPoint :: c.programs.map Name.text

/-- A reported variable; the program it belongs to is left open, and so are missing units. -/
def OutputVariable.record (o : OutputVariable) : Record where
  cls := "EnergyManagementSystem:OutputVariable"
  fields :=
    [Text.trim o.name, o.source.text, word o.data, word o.frequency, "",
     Text.trim (o.units.getD "")]

/-- A request for output. -/
def OutputRequest.record (r : OutputRequest) : Record where
  cls := "Output:Variable"
  fields := [Text.trim r.key, Text.trim r.variableName, word r.frequency]

/-- One record for every object of a model, kind by kind. -/
def records (m : Model) : List Record :=
  m.reporting.record :: (m.sensors.map Sensor.record ++
  (m.actuators.map Actuator.record ++ (m.globals.map globalRecord ++
  (m.trends.map Trend.record ++ (m.internals.map InternalVariable.record ++
  (m.constructions.map ConstructionIndex.record ++
  (m.programs.map (Program.record "EnergyManagementSystem:Program") ++
  (m.subroutines.map (Program.record "EnergyManagementSystem:Subroutine") ++
  (m.managers.map CallingManager.record ++ (m.outputs.map OutputVariable.record ++
   m.requests.map OutputRequest.record))))))))))

/-! ## Fields -/

/-- A reader gets this value from a field. -/
structure FieldReads (field : String × String) (value : String) : Prop where
  fits : FitsField field.1
  comment : ∀ c ∈ field.2.toList, isLineEnd c = false
  reads : Text.trim field.1 = value

/-- A cell is read as it is. -/
theorem FieldReads.cell {value comment : String} (h : IsCell value.toList)
    (hc : comment.toList.any isLineEnd = false) : FieldReads (value, comment) value :=
  ⟨h.field, not_isLineEnd_of_any hc, Text.trim_eq_self h.trimmed⟩

/-- A text of the building is read without the blanks around it. -/
theorem FieldReads.host {value comment : String} (h : fieldReason? value = none)
    (hc : comment.toList.any isLineEnd = false) :
    FieldReads (value, comment) (Text.trim value) :=
  ⟨fieldReason?_eq_none_iff.1 h, not_isLineEnd_of_any hc, rfl⟩

/-- Counts are written with characters of names. -/
theorem isNameChar_toString (n : Nat) : ∀ c ∈ (toString n).toList, isNameChar c = true := by
  intro c hc
  rw [Nat.toString_eq_ofList_toDigits, String.toList_ofList] at hc
  exact isNameChar_of_isDigit (Nat.isDigit_of_mem_toDigits (by decide) (by decide) hc)

theorem isCell_toString (n : Nat) : IsCell (toString n).toList := by
  refine isCell_of_forall_isWordChar ?_ fun c hc => by simp [isWordChar, isNameChar_toString n c hc]
  rw [Nat.toString_eq_ofList_toDigits, String.toList_ofList]
  exact Nat.toDigits_ne_nil

/-- Numbered fields are read one by one. -/
theorem fieldReads_numbered {comment : String} (hc : comment.toList.any isLineEnd = false)
    {values : List String} (cells : ∀ v ∈ values, IsCell v.toList) :
    List.Forall₂ FieldReads (numberedFields comment values) values := by
  have numbered (n : Nat) : s!"{comment} {n + 1}".toList.any isLineEnd = false := by
    refine List.any_eq_false.2 fun c hm => ?_
    rw [Bool.not_eq_true]
    have parts : s!"{comment} {n + 1}".toList =
        comment.toList ++ (' ' :: (toString (n + 1)).toList) := by
      simp only [String.toList_append, List.append_assoc]
      rfl
    rw [parts] at hm
    rcases List.mem_append.1 hm with hm | hm
    · exact not_isLineEnd_of_any hc c hm
    rcases List.mem_cons.1 hm with rfl | hm
    · rfl
    · exact (isFieldChar_plain (isFieldChar_of_isNameChar (isNameChar_toString _ c hm))).1
  -- the numbers go on, so the induction is for every first number
  have all (k : Nat) : List.Forall₂ FieldReads
      ((values.zipIdx k).map fun v => (v.1, s!"{comment} {v.2 + 1}")) values := by
    induction values generalizing k with
    | nil => exact .nil
    | cons v values ih =>
      obtain ⟨cell, cells⟩ := List.forall_mem_cons.1 cells
      exact .cons (.cell cell (numbered k)) (ih cells (k + 1))
  exact all 0

/-! ## Objects -/

/-- A reader gets this record from an object. -/
def Reads (o : InputObject) (r : Record) : Prop :=
  o.Fits ∧ (⟨Text.trim o.cls, o.fields.map fun f => Text.trim f.1⟩ : Record) = r

/-- Fields that are read one by one make the object. -/
theorem Reads.of_fields {o : InputObject} {r : Record} (cls : IsCell o.cls.toList)
    (same : o.cls = r.cls) (nonempty : o.fields ≠ [])
    (fields : List.Forall₂ FieldReads o.fields r.fields) : Reads o r := by
  have each (fs : List (String × String)) (vs : List String) (h : List.Forall₂ FieldReads fs vs) :
      (∀ f ∈ fs, FitsField f.1) ∧ (∀ f ∈ fs, ∀ c ∈ f.2.toList, isLineEnd c = false) ∧
        fs.map (fun f => Text.trim f.1) = vs := by
    induction h with
    | nil => simp
    | cons first _ ih =>
      exact ⟨List.forall_mem_cons.2 ⟨first.fits, ih.1⟩,
        List.forall_mem_cons.2 ⟨first.comment, ih.2.1⟩, by rw [List.map_cons, first.reads, ih.2.2]⟩
  obtain ⟨values, comments, trimmed⟩ := each _ _ fields
  refine ⟨⟨cls.field, nonempty, values, comments⟩, ?_⟩
  rw [Text.trim_eq_self cls.trimmed, trimmed, same]

section Kinds

theorem Reporting.reads (r : Reporting) : Reads r.inputObject r.record := by
  refine .of_fields (isCell_of_word (w := "Output:EnergyManagementSystem") (by decide)) rfl
    (by simp [Reporting.inputObject]) ?_
  exact .cons (.cell (isCell_dictionaryReporting _) (by decide))
    (.cons (.cell (isCell_dictionaryReporting _) (by decide))
      (.cons (.cell (isCell_debugLevel _) (by decide)) .nil))

theorem Sensor.reads {s : Sensor} (h : (Declaration.sensor s).Valid) :
    Reads s.inputObject s.record := by
  obtain ⟨key, output⟩ := by simpa [Declaration.fields] using h.fields
  refine .of_fields (isCell_of_word (w := "EnergyManagementSystem:Sensor") (by decide)) rfl
    (by simp [Sensor.inputObject]) ?_
  exact .cons (.cell s.name.isCell (by decide))
    (.cons (.host key (by decide)) (.cons (.host output (by decide)) .nil))

theorem Actuator.reads {a : Actuator} (h : (Declaration.actuator a).Valid) :
    Reads a.inputObject a.record := by
  obtain ⟨component, type, control⟩ := by simpa [Declaration.fields] using h.fields
  refine .of_fields (isCell_of_word (w := "EnergyManagementSystem:Actuator") (by decide)) rfl
    (by simp [Actuator.inputObject]) ?_
  exact .cons (.cell a.name.isCell (by decide)) (.cons (.host component (by decide))
    (.cons (.host type (by decide)) (.cons (.host control (by decide)) .nil)))

theorem reads_global (name : Name) : Reads (globalObject name) (globalRecord name) := by
  refine .of_fields (isCell_of_word (w := "EnergyManagementSystem:GlobalVariable") (by decide)) rfl
    (by simp [globalObject]) ?_
  exact .cons (.cell name.isCell (by decide)) .nil

theorem Trend.reads (t : Trend) : Reads t.inputObject t.record := by
  refine .of_fields (isCell_of_word (w := "EnergyManagementSystem:TrendVariable") (by decide)) rfl
    (by simp [Trend.inputObject]) ?_
  exact .cons (.cell t.name.isCell (by decide)) (.cons (.cell t.source.isCell (by decide))
    (.cons (.cell (isCell_toString _) (by decide)) .nil))

theorem InternalVariable.reads {v : InternalVariable} (h : (Declaration.internal v).Valid) :
    Reads v.inputObject v.record := by
  obtain ⟨key, dataType⟩ := by simpa [Declaration.fields] using h.fields
  refine .of_fields (isCell_of_word (w := "EnergyManagementSystem:InternalVariable") (by decide)) rfl
    (by simp [InternalVariable.inputObject]) ?_
  exact .cons (.cell v.name.isCell (by decide))
    (.cons (.host key (by decide)) (.cons (.host dataType (by decide)) .nil))

theorem ConstructionIndex.reads {c : ConstructionIndex} (h : (Declaration.construction c).Valid) :
    Reads c.inputObject c.record := by
  have construction := by simpa [Declaration.fields] using h.fields
  refine .of_fields (isCell_of_word (w := "EnergyManagementSystem:ConstructionIndexVariable")
    (by decide)) rfl (by simp [ConstructionIndex.inputObject]) ?_
  exact .cons (.cell c.name.isCell (by decide)) (.cons (.host construction (by decide)) .nil)

theorem Program.reads {cls : String} (hc : IsCell cls.toList) (p : Program) :
    Reads (p.inputObject cls) (p.record cls) := by
  refine .of_fields hc rfl (by simp [Program.inputObject]) ?_
  exact .cons (.cell p.name.isCell (by decide))
    (fieldReads_numbered (by decide) fun _ hv => Code.isCell_of_mem_lines hv)

theorem CallingManager.reads {c : CallingManager} (h : (Declaration.manager c).Valid) :
    Reads c.inputObject c.record := by
  have name := by simpa [Declaration.fields] using h.fields
  refine .of_fields (isCell_of_word (w := "EnergyManagementSystem:ProgramCallingManager") (by decide))
    rfl (by simp [CallingManager.inputObject]) ?_
  refine .cons (.host name (by decide)) (.cons (.cell (isCell_callingPoint _) (by decide)) ?_)
  refine fieldReads_numbered (by decide) fun v hv => ?_
  obtain ⟨n, -, rfl⟩ := List.mem_map.1 hv
  exact n.isCell

theorem OutputVariable.reads {o : OutputVariable} (h : (Declaration.output o).Valid) :
    Reads o.inputObject o.record := by
  obtain ⟨name, units⟩ := by simpa [Declaration.fields] using h.fields
  have unset : FieldReads ("", "EMS Program or Subroutine Name") "" :=
    ⟨by simp [FitsField], not_isLineEnd_of_any (by decide), rfl⟩
  refine .of_fields (isCell_of_word (w := "EnergyManagementSystem:OutputVariable") (by decide)) rfl
    (by simp [OutputVariable.inputObject]) ?_
  exact .cons (.host name (by decide)) (.cons (.cell o.source.isCell (by decide))
    (.cons (.cell (isCell_outputData _) (by decide))
      (.cons (.cell (isCell_updateFrequency _) (by decide))
        (.cons unset (.cons (.host units (by decide)) .nil)))))

theorem OutputRequest.reads {r : OutputRequest} (h : (Declaration.request r).Valid) :
    Reads r.inputObject r.record := by
  obtain ⟨key, variableName⟩ := by simpa [Declaration.fields] using h.fields
  refine .of_fields (isCell_of_word (w := "Output:Variable") (by decide)) rfl
    (by simp [OutputRequest.inputObject]) ?_
  exact .cons (.host key (by decide)) (.cons (.host variableName (by decide))
    (.cons (.cell (isCell_reportingFrequency _) (by decide)) .nil))

end Kinds

/-! ## Main result -/

/-- The objects of a coherent model are read as its records, one by one. -/
theorem reads_inputObjects {m : Model} (h : Coherent m) :
    List.Forall₂ Reads m.inputObjects m.records := by
  have kind {α : Type} {xs : List α} {object : α → InputObject} {record : α → Record}
      (reads : ∀ x ∈ xs, Reads (object x) (record x)) :
      List.Forall₂ Reads (xs.map object) (xs.map record) := by
    induction xs with
    | nil => exact .nil
    | cons x xs ih =>
      obtain ⟨first, rest⟩ := List.forall_mem_cons.1 reads
      exact .cons first (ih rest)
  have valid {d : Declaration} (hd : d ∈ m.objects d.kind) : d.Valid :=
    h.valid d (mem_declarations.2 hd)
  refine .cons (Reporting.reads _) ?_
  refine List.rel_append (kind fun s hs => Sensor.reads (valid (List.mem_map_of_mem hs))) ?_
  refine List.rel_append (kind fun a ha => Actuator.reads (valid (List.mem_map_of_mem ha))) ?_
  refine List.rel_append (kind fun g _ => reads_global g) ?_
  refine List.rel_append (kind fun t _ => Trend.reads t) ?_
  refine List.rel_append (kind fun v hv => InternalVariable.reads (valid (List.mem_map_of_mem hv))) ?_
  refine List.rel_append
    (kind fun c hc => ConstructionIndex.reads (valid (List.mem_map_of_mem hc))) ?_
  refine List.rel_append (kind fun p _ => Program.reads (isCell_of_word (by decide)) p) ?_
  refine List.rel_append (kind fun p _ => Program.reads (isCell_of_word (by decide)) p) ?_
  refine List.rel_append (kind fun c hc => CallingManager.reads (valid (List.mem_map_of_mem hc))) ?_
  refine List.rel_append (kind fun o ho => OutputVariable.reads (valid (List.mem_map_of_mem ho))) ?_
  exact kind fun r hr => OutputRequest.reads (valid (List.mem_map_of_mem hr))

/-- The file of every model that a session can come to is read back into the records of its
    objects: each object once, in order, with its class and its values. -/
theorem readRecords_inputFile {m : Model} (h : m.Reachable) :
    readRecords m.inputFile = m.records := by
  have reads := reads_inputObjects h.coherent
  have fits : ∀ o ∈ m.inputObjects, o.Fits := fun o ho => by
    obtain ⟨r, -, hr⟩ := exists_of_mem_forall₂ reads ho
    exact hr.1
  have each (os : List InputObject) (rs : List Record) (h : List.Forall₂ Reads os rs) :
      os.map (fun o => ⟨Text.trim o.cls, o.fields.map fun f => Text.trim f.1⟩) = rs := by
    induction h with
    | nil => rfl
    | cons first _ ih => rw [List.map_cons, ih, first.2]
  rw [inputFile, readRecords_join fits, each _ _ reads]

/-- A sensor on a zone, its key written with blanks around. -/
def zoneSensor : Declaration :=
  .sensor ⟨⟨"Tzone", by decide⟩, " Core ", "Zone Mean Air Temperature"⟩

/-- The file of a model with one sensor. -/
theorem readRecords_zoneSensor : readRecords (Model.empty.push zoneSensor).inputFile =
    [⟨"Output:EnergyManagementSystem", ["None", "None", "None"]⟩,
     ⟨"EnergyManagementSystem:Sensor", ["Tzone", "Core", "Zone Mean Air Temperature"]⟩] := by
  have declared : Model.empty.declare zoneSensor = .ok (Model.empty.push zoneSensor) := rfl
  exact (readRecords_inputFile (.declare .empty declared)).trans (by decide)

end BuildingControl.Model
