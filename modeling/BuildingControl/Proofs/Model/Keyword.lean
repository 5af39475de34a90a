/-
  BuildingControl.Proofs.Model.Keyword

  The words of choices are texts of one field: they have no blanks, and no characters
  that end a field or a line.
-/
import BuildingControl.Model.Keyword
import BuildingControl.Proofs.Erl.Line

namespace BuildingControl.Model

open Erl

theorem isCell_dictionaryReporting (d : DictionaryReporting) : IsCell (word d).toList := by
  cases d <;> exact isCell_of_word (by decide)

theorem isCell_debugLevel (d : DebugLevel) : IsCell (word d).toList := by
  cases d <;> exact isCell_of_word (by decide)

theorem isCell_callingPoint (p : CallingPoint) : IsCell (word p).toList := by
  cases p <;> exact isCell_of_word (by decide)

theorem isCell_outputData (d : OutputData) : IsCell (word d).toList := by
  cases d <;> exact isCell_of_word (by decide)

theorem isCell_updateFrequency (f : UpdateFrequency) : IsCell (word f).toList := by
  cases f <;> exact isCell_of_word (by decide)

theorem isCell_reportingFrequency (f : ReportingFrequency) : IsCell (word f).toList := by
  cases f <;> exact isCell_of_word (by decide)

end BuildingControl.Model
