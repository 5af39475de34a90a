/-
  BuildingControl.Document.Value

  The tree of a document: what is written to files and answered to callers, and
  what a JSON text is read as.
-/

namespace BuildingControl.Document

/-- A tree of scalars, lists and objects.  The fields of an object keep their order. -/
inductive Value
  | null
  | bool (b : Bool)
  | int (n : Int)
  | real (x : Float)
  | text (s : String)
  | list (items : List Value)
  | object (fields : List (String × Value))
  /-- A part of a text that is well formed and stands for no value, such as a number beyond the
      range of floats.  It may be skipped, not used. -/
  | unreadable

end BuildingControl.Document
