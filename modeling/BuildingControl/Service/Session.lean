/-
  BuildingControl.Service.Session

  Commands carried out: what is printed, and whether it went well.
-/
import BuildingControl.Service.CommandLine
import BuildingControl.Service.File
import BuildingControl.Service.Listing
import BuildingControl.Service.Rule

namespace BuildingControl.Service

open Erl Model

/-- What a run of the program comes to. -/
structure Outcome where
  /-- Zero if all went well, one if the command failed, two if there was none. -/
  code : Nat
  printed : String
  fault : Option Fault

/-- All went well. -/
def Outcome.ok (printed : String) : Outcome := ⟨0, printed, none⟩

/-- The command failed after something had been printed. -/
def Outcome.failed (printed : String) (fault : Fault) : Outcome := ⟨1, printed, some fault⟩

/-- A line of output. -/
def line (text : String) : String := text ++ "\n"

/-- The schedule of a listed program in words. -/
def scheduleText : Option (String × CallingPoint) → String
  | some (manager, point) => manager ++ " @ " ++ word point
  | none => "unscheduled"

/-- A listed program on its lines. -/
def listedText (p : ListedProgram) : String :=
  let head := "  " ++ p.name ++ " [" ++ p.kind.label ++ "] " ++ toString p.lineCount ++ " lines, " ++
    scheduleText p.schedule
  let reads := if p.reads.isEmpty then "" else line ("    reads: " ++ String.intercalate ", " p.reads)
  line head ++ reads

/-- A listing in lines. -/
def listingText (programs : List ListedProgram) : String :=
  if programs.isEmpty then line "No programs found in project"
  else line "Programs in project:" ++ String.join (programs.map listedText)

/-- The program of rules, its lines ended by line feeds. -/
def piecewiseText (subject : String) (rules : List String) (default : String)
    (comparison : Comparison) : Except Fault String := do
  let rows ← eachOk readRule rules
  let action ← readAction default
  let code ← compileTable ⟨subject, comparison, rows, some action⟩
  return line code.text

section

variable {m : Type → Type} [Monad m]

/-- Checks a project file. -/
def runValidate (files : Files m) (path : String) : m Outcome := do
  let head := line ("Validating project: " ++ path)
  match ← load files path with
  | .error fault => return .failed head fault
  | .ok p =>
    match checkProject p with
    | .error fault => return .failed head fault
    | .ok () => return .ok (head ++ line "✓ Project is valid")

/-- Lists the programs of a project file. -/
def runPrograms (files : Files m) (path : String) : m Outcome := do
  match ← compileFile files path with
  | .error fault => return .failed "" fault
  | .ok model => return .ok (listingText (listing model))

/-- Compiles a project file, to another file or to the output. -/
def runCompile (files : Files m) (path : String) (output : Option String) : m Outcome := do
  match ← compileFile files path with
  | .error fault => return .failed "" fault
  | .ok model =>
    match output with
    | none => return .ok model.inputFile
    | some target =>
      match ← writeOutput files target model with
      | .error fault => return .failed "" fault
      | .ok () => return .ok (line ("✓ Wrote " ++ model.summary.text ++ " to " ++ target))

/-- Carries out a command. -/
def Command.run (files : Files m) : Command → m Outcome
  | .validate path => runValidate files path
  | .programs path => runPrograms files path
  | .compile path output => runCompile files path output
  | .piecewise subject rules default comparison =>
    match piecewiseText subject rules default comparison with
    | .ok text => return .ok text
    | .error fault => return .failed "" fault

/-- How the program is called. -/
def usage : String :=
  line "Usage: building-control <COMMAND>" ++ line "" ++ line "Commands:" ++
  line "  validate <PROJECT_PATH>" ++ line "  programs <PROJECT_PATH>" ++
  line "  compile <PROJECT_PATH> [-o <OUTPUT>]" ++
  line "  piecewise <COMPARISON_VARIABLE> -r <RULE>... -d <DEFAULT> [-c <COMPARISON>]"

/-- Carries out a command line. -/
def runArgs (files : Files m) (args : List String) : m Outcome :=
  match Command.ofArgs args with
  | .ok command => command.run files
  | .error .help => return .ok usage
  | .error .usage => return ⟨2, "", none⟩

end

end BuildingControl.Service
