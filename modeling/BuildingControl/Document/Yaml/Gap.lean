/-
  BuildingControl.Document.Yaml.Gap

  The blanks and breaks between the words of a scalar.  A single break becomes a
  blank; of more breaks the first is dropped; blanks around breaks are dropped.
-/
import BuildingControl.Document.Yaml.Char

namespace BuildingControl.Document.Yaml

/-- A run of blanks and breaks. -/
structure Gap where
  /-- The blanks, as long as there is no break. -/
  blanks : List Char
  /-- The first break. -/
  first : List Char
  /-- The breaks after the first. -/
  later : List Char
  /-- Whether there was a break. -/
  broken : Bool

namespace Gap

/-- Nothing between two characters. -/
def none : Gap := ⟨[], [], [], false⟩

/-- An escaped break, which stands for nothing. -/
def escaped : Gap := ⟨[], [], [], true⟩

/-- Whether there is anything in the run. -/
def started (g : Gap) : Bool :=
  g.broken || !g.blanks.isEmpty

/-- The run with one more blank or break. -/
def add (g : Gap) (c : Char) : Gap :=
  if isBreak c then
    if g.broken then { g with later := g.later ++ [c] } else ⟨[], [c], [], true⟩
  else if g.broken then g
  else { g with blanks := g.blanks ++ [c] }

/-- What the run stands for. -/
def text (g : Gap) : List Char :=
  if g.broken then
    if g.first = ['\n'] then (if g.later.isEmpty then [' '] else g.later) else g.first ++ g.later
  else g.blanks

end Gap

end BuildingControl.Document.Yaml
