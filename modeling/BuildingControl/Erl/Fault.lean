/-
  BuildingControl.Erl.Fault

  What can be wrong with a control program or with the objects it is bound to.
  A fault names its cause; `Fault.message` is the one place where it is worded.
-/
import BuildingControl.Number

namespace BuildingControl.Erl

/-! ## Causes -/

/-- Why a text is no name. -/
inductive NameReason
  | empty
  | start
  | character
  | reserved
  deriving DecidableEq

/-- The wording of a name reason. -/
def NameReason.text : NameReason → String
  | .empty => "must not be empty"
  | .start => "must start with a letter"
  | .character => "may only contain letters, digits and '_'"
  | .reserved => "is a reserved word"

/-- Why a text cannot be one field of an input file. -/
inductive FieldReason
  | severalLines
  | separator
  deriving DecidableEq

/-- The wording of a field reason. -/
def FieldReason.text : FieldReason → String
  | .severalLines => "must fit on one line"
  | .separator => "must not contain ',', ';' or '!'"

/-- Why a text is no expression. -/
inductive ExpressionReason
  | empty
  | field (reason : FieldReason)
  deriving DecidableEq

/-- The wording of an expression reason. -/
def ExpressionReason.text : ExpressionReason → String
  | .empty => "must not be empty"
  | .field reason => reason.text

/-- How the branches of a program fail to match, with the number of the offending line if there
    is one. -/
inductive BranchFault
  | elseIfOutside (line : Nat)
  | elseIfAfterElse (line : Nat)
  | elseOutside (line : Nat)
  | secondElse (line : Nat)
  | endIfOutside (line : Nat)
  | unclosed (count : Nat)
  | uneven (opened closed : Nat)
  deriving DecidableEq

/-- The wording of a branch fault. -/
def BranchFault.text : BranchFault → String
  | .elseIfOutside line => s!"line {line}: ELSEIF without open IF"
  | .elseIfAfterElse line => s!"line {line}: ELSEIF after ELSE"
  | .elseOutside line => s!"line {line}: ELSE without open IF"
  | .secondElse line => s!"line {line}: second ELSE in one IF"
  | .endIfOutside line => s!"line {line}: ENDIF without open IF"
  | .unclosed count => s!"{count} IF block(s) not closed by ENDIF"
  | .uneven opened closed => s!"rendered {opened} IF lines but {closed} ENDIF lines"

/-- What a declared name stands for. -/
inductive NameClass
  | sensor
  | actuator
  | global
  | trend
  | internal
  | constructionIndex
  | program
  | subroutine
  deriving DecidableEq

/-- The name of a class in messages. -/
def NameClass.label : NameClass → String
  | .sensor => "sensor"
  | .actuator => "actuator"
  | .global => "global variable"
  | .trend => "trend variable"
  | .internal => "internal variable"
  | .constructionIndex => "construction index variable"
  | .program => "program"
  | .subroutine => "subroutine"

/-- Whether programs may read the name as a variable. -/
def NameClass.isVariable : NameClass → Bool
  | .program => false
  | .subroutine => false
  | _ => true

/-- Whether programs may assign to the name. -/
def NameClass.isWritable : NameClass → Bool
  | .actuator => true
  | .global => true
  | _ => false

/-- The object in which a name is used. -/
inductive Place
  | program (name : String)
  | subroutine (name : String)
  | manager (name : String)
  | trend (name : String)
  | output (name : String)
  deriving DecidableEq

/-- The wording of a place. -/
def Place.text : Place → String
  | .program name => s!"program {name}"
  | .subroutine name => s!"subroutine {name}"
  | .manager name => s!"calling manager {name}"
  | .trend name => s!"trend variable {name}"
  | .output name => s!"output variable {name}"

/-- The fields of objects that hold text of the simulated building. -/
inductive HostField
  | sensorKey
  | sensorOutput
  | component
  | componentType
  | controlType
  | internalKey
  | internalType
  | construction
  | outputName
  | outputUnits
  | requestKey
  | requestVariable
  | managerName
  deriving DecidableEq

/-- The name of a field in messages. -/
def HostField.title : HostField → String
  | .sensorKey => "sensor key"
  | .sensorOutput => "sensor output variable"
  | .component => "actuated component"
  | .componentType => "actuated component type"
  | .controlType => "actuator control type"
  | .internalKey => "internal variable key"
  | .internalType => "internal data type"
  | .construction => "construction"
  | .outputName => "output variable name"
  | .outputUnits => "output variable units"
  | .requestKey => "output request key"
  | .requestVariable => "output request variable"
  | .managerName => "calling manager name"

/-- Arguments that no object or program can be made of. -/
inductive ArgumentFault
  | numberingExhausted
  | emptyProgram
  | emptyTrend
  | comparison
  | callingPoint
  deriving DecidableEq

/-- The wording of an argument fault. -/
def ArgumentFault.text : ArgumentFault → String
  | .numberingExhausted => "name allocator exhausted"
  | .emptyProgram => "program must contain at least one statement"
  | .emptyTrend => "trend variable must log at least one timestep"
  | .comparison => "comparison must be one of <=, <, >=, >, ==, <>"
  | .callingPoint => "unknown calling point"

/-! ## Faults -/

/-- What is wrong with a program or an object. -/
inductive Fault
  | noRules
  | noDefault
  | invalidName (text : String) (reason : NameReason)
  | unmatchedBranch (fault : BranchFault)
  | invalidExpression (text : String) (reason : ExpressionReason)
  | nonFinite (fault : Number.NonFinite)
  | duplicateName (name : String)
  | undeclared (name : String) (place : Place)
  | unknownReference (name : String) (place : Place)
  | readOnly (name : String) (place : Place) (cls : NameClass)
  | invalidField (field : HostField) (value : String) (reason : FieldReason)
  | unsupportedControl (componentType : String) (control : String)
  | argument (fault : ArgumentFault)

/-- The wording of a fault. -/
def Fault.message : Fault → String
  | .noRules => "Invalid rule set: at least one threshold rule is required"
  | .noDefault => "Invalid rule set: a default action is required"
  | .invalidName text reason => s!"Invalid identifier '{text}': {reason.text}"
  | .unmatchedBranch fault => s!"Unmatched branch: {fault.text}"
  | .invalidExpression text reason => s!"Invalid expression '{text}': {reason.text}"
  | .nonFinite fault => fault.message
  | .duplicateName name => s!"Duplicate name: {name}"
  | .undeclared name place => s!"Undeclared variable '{name}' in {place.text}"
  | .unknownReference name place => s!"Unknown reference '{name}' in {place.text}"
  | .readOnly name place cls =>
    s!"Assignment to read-only '{name}' in {place.text} (a {cls.label})"
  | .invalidField field value reason => s!"Invalid {field.title} '{value}': {reason.text}"
  | .unsupportedControl componentType control =>
    s!"Component type '{componentType}' has no control '{control}'"
  | .argument fault => s!"Invalid argument: {fault.text}"

end BuildingControl.Erl
