/-
  BuildingControl.Erl.Block

  How branches nest.  `ELSEIF` and `ELSE` stand inside an open `IF`, after an
  `ELSE` only statements and `ENDIF` follow, and every `IF` has its `ENDIF`.
  One pass over the lines decides it, with one flag per open `IF`: whether its
  `ELSE` has been seen.  The finished text is looked at once more: it has to open
  as many branches as it closes.
-/
import BuildingControl.Erl.Statement

namespace BuildingControl.Erl

/-- The open branches after one more line, innermost first, or how the line fails to match. -/
def stepBlock (line : Nat) (openIfs : List Bool) : Statement → Except BranchFault (List Bool)
  | .ifThen _ => .ok (false :: openIfs)
  | .elseIf _ =>
    match openIfs with
    | [] => .error (.elseIfOutside line)
    | true :: _ => .error (.elseIfAfterElse line)
    | false :: rest => .ok (false :: rest)
  | .otherwise =>
    match openIfs with
    | [] => .error (.elseOutside line)
    | true :: _ => .error (.secondElse line)
    | false :: rest => .ok (true :: rest)
  | .endIf =>
    match openIfs with
    | [] => .error (.endIfOutside line)
    | _ :: rest => .ok rest
  | .assign _ _ => .ok openIfs
  | .run _ => .ok openIfs
  | .leave => .ok openIfs

/-- The open branches after a list of lines, the first of which has the given number. -/
def runBlocks : Nat → List Bool → List Statement → Except BranchFault (List Bool)
  | _, openIfs, [] => .ok openIfs
  | line, openIfs, s :: rest =>
    match stepBlock line openIfs s with
    | .ok next => runBlocks (line + 1) next rest
    | .error fault => .error fault

/-- Whether the branches of a program match. -/
def checkBlocks (statements : List Statement) : Except BranchFault Unit :=
  match runBlocks 1 [] statements with
  | .ok [] => .ok ()
  | .ok openIfs => .error (.unclosed openIfs.length)
  | .error fault => .error fault

/-- Whether a line opens a branch, by its text. -/
def opensBranch (line : String) : Bool :=
  "IF ".toList.isPrefixOf line.toList

/-- Whether the text of a program opens as many branches as it closes. -/
def checkLines (lines : List String) : Except BranchFault Unit :=
  let opened := lines.countP opensBranch
  let closed := lines.count "ENDIF"
  if opened = closed then .ok () else .error (.uneven opened closed)

end BuildingControl.Erl
