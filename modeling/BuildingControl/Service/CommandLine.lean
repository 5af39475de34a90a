/-
  BuildingControl.Service.CommandLine

  The command line: a command, its subject, and options in any order.  The
  value of an option may stand after it or be attached to it, as in `-o out`,
  `-oout`, `-o=out`, `--output out` and `--output=out`.
-/
import BuildingControl.Erl.Statement

namespace BuildingControl.Service

open Erl

/-! ## Commands -/

/-- What the program can be asked for. -/
inductive Command
  | validate (project : String)
  | programs (project : String)
  | compile (project : String) (output : Option String)
  | piecewise (subject : String) (rules : List String) (default : String)
      (comparison : Comparison)
  deriving DecidableEq

/-- Why there is no command to carry out. -/
inductive Stop
  /-- The command line makes no sense. -/
  | usage
  /-- Help is asked for. -/
  | help
  deriving DecidableEq

/-- The name of a command. -/
inductive Verb
  | validate
  | programs
  | compile
  | piecewise
  deriving DecidableEq

/-- The command with this name. -/
def Verb.ofText? : String → Option Verb
  | "validate" => some .validate
  | "programs" => some .programs
  | "compile" => some .compile
  | "piecewise" => some .piecewise
  | _ => none

/-- The options of commands. -/
inductive Flag
  | output
  | rule
  | default
  | comparison
  deriving DecidableEq

/-- The options that a command takes. -/
def Verb.flags : Verb → List Flag
  | .compile => [.output]
  | .piecewise => [.rule, .default, .comparison]
  | _ => []

/-- The long spelling of an option. -/
def Flag.long : Flag → List Char
  | .output => "output".toList
  | .rule => "rule".toList
  | .default => "default".toList
  | .comparison => "comparison".toList

/-- The short spelling of an option. -/
def Flag.short : Flag → Char
  | .output => 'o'
  | .rule => 'r'
  | .default => 'd'
  | .comparison => 'c'

/-! ## Arguments -/

/-- What has been given so far. -/
structure Given where
  subject : Option String
  output : Option String
  rules : List String
  default : Option String
  comparison : Option Comparison

/-- Nothing. -/
def Given.nothing : Given := ⟨none, none, [], none, none⟩

/-- One more option.  Only rules may be given more than once; a path is not empty, and a
    comparison is one of the symbols. -/
def Given.option (g : Given) (value : String) : Flag → Except Stop Given
  | .output =>
    if g.output.isSome || value.isEmpty then .error .usage
    else .ok { g with output := some value }
  | .rule => .ok { g with rules := g.rules ++ [value] }
  | .default =>
    if g.default.isSome then .error .usage else .ok { g with default := some value }
  | .comparison =>
    match g.comparison, Comparison.ofText? value with
    | none, .ok c => .ok { g with comparison := some c }
    | _, _ => .error .usage

/-- The subject of the command; there is one, and a path is not empty. -/
def Given.withSubject (g : Given) (verb : Verb) (value : String) : Except Stop Given :=
  if g.subject.isSome || (value.isEmpty && verb != .piecewise) then .error .usage
  else .ok { g with subject := some value }

/-- Whether an argument looks like an option. -/
def isOptionLike (arg : String) : Bool :=
  match arg.toList with
  | '-' :: _ :: _ => true
  | _ => false

/-- What an argument is on its own. -/
inductive Shape
  /-- The mark after which everything is a subject. -/
  | escape
  /-- An option, with the value attached to it. -/
  | option (flag : Flag) (value : Option String)
  | help
  | unknown
  | plain

/-- The name before a `=` and the text after it. -/
def splitAttached (cs : List Char) : List Char × Option String :=
  match cs.span (· != '=') with
  | (name, _ :: value) => (name, some (String.ofList value))
  | (name, []) => (name, none)

/-- A text attached to a short option, without the `=` that may lead it. -/
def attached : List Char → Option String
  | [] => none
  | '=' :: value => some (String.ofList value)
  | value => some (String.ofList value)

/-- The shape of an argument among some options. -/
def shape (flags : List Flag) (arg : String) : Shape :=
  match arg.toList with
  | ['-', '-'] => .escape
  | '-' :: '-' :: body =>
    let (name, value) := splitAttached body
    match flags.find? fun f => f.long == name with
    | some flag => .option flag value
    | none => if name == "help".toList && value.isNone then .help else .unknown
  | '-' :: c :: body =>
    match flags.find? fun f => f.short == c with
    | some flag => .option flag (attached body)
    | none => if c == 'h' then .help else .unknown
  | _ => .plain

/-- Arguments after the mark are subjects. -/
def subjects (verb : Verb) (g : Given) : List String → Except Stop Given
  | [] => .ok g
  | arg :: rest =>
    match g.withSubject verb arg with
    | .error stop => .error stop
    | .ok next => subjects verb next rest

/-- The arguments of a command; with a pending option, the next one is its value.  The value of a
    rule may look like an option. -/
def scan (verb : Verb) (g : Given) (pending : Option Flag) : List String → Except Stop Given
  | [] => if pending.isSome then .error .usage else .ok g
  | arg :: rest =>
    match pending with
    | some flag =>
      if isOptionLike arg && flag != .rule then .error .usage
      else
        match g.option arg flag with
        | .error stop => .error stop
        | .ok next => scan verb next none rest
    | none =>
      match shape verb.flags arg with
      | .escape => subjects verb g rest
      | .help => .error .help
      | .unknown => .error .usage
      | .option flag none => scan verb g (some flag) rest
      | .option flag (some value) =>
        match g.option value flag with
        | .error stop => .error stop
        | .ok next => scan verb next none rest
      | .plain =>
        match g.withSubject verb arg with
        | .error stop => .error stop
        | .ok next => scan verb next none rest

/-- The command, if everything it needs is given. -/
def Given.command (g : Given) (verb : Verb) : Except Stop Command :=
  match g.subject with
  | none => .error .usage
  | some subject =>
    match verb with
    | .validate => .ok (.validate subject)
    | .programs => .ok (.programs subject)
    | .compile => .ok (.compile subject g.output)
    | .piecewise =>
      match g.rules, g.default with
      | [], _ => .error .usage
      | _, none => .error .usage
      | rules, some default => .ok (.piecewise subject rules default (g.comparison.getD .le))

/-- Help on a command, or on the program. -/
def helpStop : List String → Stop
  | [] => .help
  | [name] => if (Verb.ofText? name).isSome || name == "help" then .help else .usage
  | _ => .usage

/-- The command of a command line. -/
def Command.ofArgs (args : List String) : Except Stop Command :=
  match args with
  | [] => .error .usage
  | first :: rest =>
    match Verb.ofText? first with
    | some verb =>
      match scan verb .nothing none rest with
      | .error stop => .error stop
      | .ok g => g.command verb
    | none =>
      if first == "help" then .error (helpStop rest)
      else
        match shape [] first with
        | .help => .error .help
        | _ => .error .usage

end BuildingControl.Service
