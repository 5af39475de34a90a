/-
  BuildingControl.Main

  The program: commands over the files of the disk.
-/
import BuildingControl.Service.Session

namespace BuildingControl.Service

/-- The files of the disk. -/
def diskFiles : Files IO where
  read path := do
    try return some (← IO.FS.readFile path)
    catch _ => return none
  write path text := do
    try
      IO.FS.writeFile path text
      return true
    catch _ => return false

end BuildingControl.Service

open BuildingControl.Service in
/-- Carries out the command line, with results on the output and faults beside it. -/
def main (args : List String) : IO UInt32 := do
  let outcome ← runArgs diskFiles args
  IO.print outcome.printed
  match outcome.fault with
  | some fault => IO.eprintln ("Error: " ++ fault.message)
  | none => if outcome.code = 2 then IO.eprint usage
  return outcome.code.toUInt32
