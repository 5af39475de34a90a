/-
  BuildingControl.Document.Yaml.Token

  The tokens of YAML.  Indentation is told by tokens of its own: a block starts
  with `blockSequenceStart` or `blockMappingStart` and ends with `blockEnd`.
-/
import BuildingControl.Document.Yaml.Scalar

namespace BuildingControl.Document.Yaml

/-- A token. -/
inductive Token
  /-- `%YAML major.minor` -/
  | version (major minor : Nat)
  /-- `%TAG handle start` -/
  | handle (handle start : List Char)
  | documentStart
  | documentEnd
  | blockSequenceStart
  | blockMappingStart
  | blockEnd
  | flowSequenceStart
  | flowSequenceEnd
  | flowMappingStart
  | flowMappingEnd
  | blockEntry
  | flowEntry
  | key
  | value
  | alias (name : List Char)
  | anchor (name : List Char)
  | tag (handle suffix : List Char)
  | scalar (style : Style) (text : List Char)
  deriving DecidableEq

end BuildingControl.Document.Yaml
