/-
  BuildingControl.Service.File

  Project files and output files.  Files are reached through two operations, so
  that the same steps run over a disk and over a store in memory.
-/
import BuildingControl.Model.InputFile
import BuildingControl.Project.Build
import BuildingControl.Project.Text
import BuildingControl.Service.Fault

namespace BuildingControl.Service

/-! ## Access -/

/-- How files are read and written. -/
structure Files (m : Type → Type) where
  /-- The text of a file, if it can be read. -/
  read : String → m (Option String)
  /-- Writes a text to a file; whether that worked. -/
  write : String → String → m Bool

/-- Files in memory, in a single directory: their names and texts, the newest first. -/
abbrev Store := List (String × String)

/-- The file of the store that a path can lead to.  There is no other directory to go through. -/
def storedName? (path : String) : Option String :=
  let parts := path.splitOn "/"
  match parts.head?, parts.getLast?, Project.pathComponents path with
  | some first, some last, [name] =>
    if (first = "" ∧ parts.length ≠ 1) ∨ last ≠ name ∨ name = ".." ∨ name.toList.contains '\x00'
      ∨ 255 < name.utf8ByteSize then none
    else some name
  | _, _, _ => none

/-- The text of a file in a store. -/
def Store.read (s : Store) (path : String) : Option String :=
  (storedName? path).bind fun name => s.lookup name

/-- The store with a file written, if the path leads to one. -/
def Store.write (s : Store) (path text : String) : Option Store :=
  (storedName? path).map fun name => (name, text) :: s

/-- The files of a store. -/
def storeFiles : Files (StateM Store) where
  read path := do return (← get).read path
  write path text := do
    match (← get).write path text with
    | some next =>
      set next
      return true
    | none => return false

/-! ## Projects in files -/

section

variable {m : Type → Type} [Monad m]

/-- The project in a file of a known format. -/
def loadAs (files : Files m) (format : Project.Format) (path : String) :
    m (Except Project.Fault Project) := do
  match ← files.read path with
  | none => return .error .storage
  | some text => return Project.read format text

/-- Writes a project to a file in a known format. -/
def saveAs (files : Files m) (format : Project.Format) (path : String) (p : Project) :
    m (Except Project.Fault Unit) := do
  match Project.write format p with
  | .error fault => return .error fault
  | .ok text =>
    if ← files.write path text then return .ok () else return .error .storage

/-- The project in a file, in the format its extension names. -/
def loadByName (files : Files m) (path : String) : m (Except Project.Fault Project) :=
  match Project.Format.ofPath? path with
  | none => return .error (.unknownFormat path)
  | some format => loadAs files format path

/-- The text of a project in the format that a path names. -/
def textFor (path : String) (p : Project) : Except Project.Fault String :=
  match Project.Format.ofPath? path with
  | none => .error (.unknownFormat path)
  | some format => Project.write format p

/-- Writes a project to a file, in the format its extension names; the project is checked
    after the extension. -/
def saveByName (files : Files m) (path : String) (p : Project) :
    m (Except Project.Fault Unit) :=
  match Project.Format.ofPath? path with
  | none => return .error (.unknownFormat path)
  | some format => saveAs files format path p

/-- Loads a project for a user. -/
def load (files : Files m) (path : String) : m (Except Fault Project) := do
  match Project.Format.ofPath? path with
  | none => return .error (.project (.unknownFormat path))
  | some format =>
    match ← files.read path with
    | none => return .error (.unreadableFile path)
    | some text => return (Project.read format text).mapError .project

/-- Saves a project for a user. -/
def save (files : Files m) (path : String) (p : Project) : m (Except Fault Unit) := do
  match textFor path p with
  | .error fault => return .error (.project fault)
  | .ok text =>
    if ← files.write path text then return .ok () else return .error (.unwritableFile path)

/-! ## Compiled projects -/

/-- Whether a project is sound, its programs included. -/
def checkProject (p : Project) : Except Fault Unit :=
  (p.build.map fun _ => ()).mapError .project

/-- The model of a project. -/
def compile (p : Project) : Except Fault Model :=
  p.build.mapError .project

/-- The model of the project in a file. -/
def compileFile (files : Files m) (path : String) : m (Except Fault Model) := do
  match ← load files path with
  | .error fault => return .error fault
  | .ok p => return compile p

/-- Writes a model as simulation input. -/
def writeOutput (files : Files m) (path : String) (model : Model) : m (Except Fault Unit) := do
  if ← files.write path model.inputFile then return .ok ()
  else return .error (.unwritableFile path)

end

end BuildingControl.Service
