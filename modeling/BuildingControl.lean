import BuildingControl.Checking
import BuildingControl.Coding.Component
import BuildingControl.Coding.Measure
import BuildingControl.Coding.Project
import BuildingControl.Decimal.Layout
import BuildingControl.Decimal.Reading
import BuildingControl.Decimal.Shortest
import BuildingControl.Document.Json.Reading
import BuildingControl.Document.Json.Writing
import BuildingControl.Document.Source
import BuildingControl.Document.Value
import BuildingControl.Document.Yaml.Char
import BuildingControl.Document.Yaml.Gap
import BuildingControl.Document.Yaml.Lexer
import BuildingControl.Document.Yaml.Node
import BuildingControl.Document.Yaml.Property
import BuildingControl.Document.Yaml.Reading
import BuildingControl.Document.Yaml.Scalar
import BuildingControl.Document.Yaml.Token
import BuildingControl.Document.Yaml.Writing
import BuildingControl.Erl.Block
import BuildingControl.Erl.Code
import BuildingControl.Erl.Expression
import BuildingControl.Erl.Fault
import BuildingControl.Erl.Name
import BuildingControl.Erl.Numbering
import BuildingControl.Erl.RuleTable
import BuildingControl.Erl.Scan
import BuildingControl.Erl.Statement
import BuildingControl.Main
import BuildingControl.Measure.Basic
import BuildingControl.Measure.Batch
import BuildingControl.Measure.Comfort
import BuildingControl.Measure.Condenser
import BuildingControl.Measure.Curve
import BuildingControl.Measure.Script
import BuildingControl.Measure.Sizing
import BuildingControl.Measure.Thermochromic
import BuildingControl.Measure.Vrf
import BuildingControl.Measure.ZoneAverage
import BuildingControl.Model.Adding
import BuildingControl.Model.Basic
import BuildingControl.Model.Check
import BuildingControl.Model.Component
import BuildingControl.Model.InputFile
import BuildingControl.Model.Keyword
import BuildingControl.Model.Merge
import BuildingControl.Model.Object
import BuildingControl.Model.Registry
import BuildingControl.Number
import BuildingControl.Project.Basic
import BuildingControl.Project.Build
import BuildingControl.Project.Check
import BuildingControl.Project.Defect
import BuildingControl.Project.Fault
import BuildingControl.Project.Format
import BuildingControl.Project.Text
import BuildingControl.Project.Upgrade
import BuildingControl.Quantity
import BuildingControl.Service.CommandLine
import BuildingControl.Service.Fault
import BuildingControl.Service.File
import BuildingControl.Service.Listing
import BuildingControl.Service.Rule
import BuildingControl.Service.Session
import BuildingControl.Text.Blank
import BuildingControl.Text.Letter
import BuildingControl.Text.Uppercase
import BuildingControl.Proofs.Checking
import BuildingControl.Proofs.Coding.Component
import BuildingControl.Proofs.Coding.Measure
import BuildingControl.Proofs.Coding.Project
import BuildingControl.Proofs.Decimal.Digit
import BuildingControl.Proofs.Decimal.Shortest
import BuildingControl.Proofs.Document.Decoding
import BuildingControl.Proofs.Document.Json.Scalar
import BuildingControl.Proofs.Document.Json.Tree
import BuildingControl.Proofs.Document.Rendering
import BuildingControl.Proofs.Document.Yaml.Node
import BuildingControl.Proofs.Erl.Arithmetic
import BuildingControl.Proofs.Erl.Block
import BuildingControl.Proofs.Erl.Draft
import BuildingControl.Proofs.Erl.Effect
import BuildingControl.Proofs.Erl.Execution
import BuildingControl.Proofs.Erl.Fault
import BuildingControl.Proofs.Erl.FirstMatch
import BuildingControl.Proofs.Erl.Formula
import BuildingControl.Proofs.Erl.Grammar
import BuildingControl.Proofs.Erl.Legible
import BuildingControl.Proofs.Erl.Line
import BuildingControl.Proofs.Erl.Mention
import BuildingControl.Proofs.Erl.Name
import BuildingControl.Proofs.Erl.Numbered
import BuildingControl.Proofs.Erl.Reading
import BuildingControl.Proofs.Erl.Reference
import BuildingControl.Proofs.Erl.Respelling
import BuildingControl.Proofs.Erl.RuleTable
import BuildingControl.Proofs.Erl.Sanitize
import BuildingControl.Proofs.Erl.Scan
import BuildingControl.Proofs.Erl.Scope
import BuildingControl.Proofs.Erl.Spelling
import BuildingControl.Proofs.Erl.Statement
import BuildingControl.Proofs.Erl.TableText
import BuildingControl.Proofs.Erl.Tagged
import BuildingControl.Proofs.Erl.Token
import BuildingControl.Proofs.Erl.Tokenized
import BuildingControl.Proofs.Erl.Usage
import BuildingControl.Proofs.Erl.Word
import BuildingControl.Proofs.Measure.Alike
import BuildingControl.Proofs.Measure.Argument
import BuildingControl.Proofs.Measure.Average
import BuildingControl.Proofs.Measure.Batch
import BuildingControl.Proofs.Measure.Blame
import BuildingControl.Proofs.Measure.Capacity
import BuildingControl.Proofs.Measure.Check
import BuildingControl.Proofs.Measure.Closed
import BuildingControl.Proofs.Measure.Condenser
import BuildingControl.Proofs.Measure.Curve
import BuildingControl.Proofs.Measure.Distinct
import BuildingControl.Proofs.Measure.Halt
import BuildingControl.Proofs.Measure.HaltCode
import BuildingControl.Proofs.Measure.Heating
import BuildingControl.Proofs.Measure.Host
import BuildingControl.Proofs.Measure.Naming
import BuildingControl.Proofs.Measure.Operation
import BuildingControl.Proofs.Measure.Package
import BuildingControl.Proofs.Measure.Reachable
import BuildingControl.Proofs.Measure.Reference
import BuildingControl.Proofs.Measure.Resolved
import BuildingControl.Proofs.Measure.Schedule
import BuildingControl.Proofs.Measure.Script
import BuildingControl.Proofs.Measure.Session
import BuildingControl.Proofs.Measure.Sizing
import BuildingControl.Proofs.Measure.Spelling
import BuildingControl.Proofs.Measure.Thermochromic
import BuildingControl.Proofs.Measure.Threshold
import BuildingControl.Proofs.Model.Adding
import BuildingControl.Proofs.Model.Capture
import BuildingControl.Proofs.Model.Check
import BuildingControl.Proofs.Model.Coherent
import BuildingControl.Proofs.Model.Execution
import BuildingControl.Proofs.Model.Export
import BuildingControl.Proofs.Model.InStep
import BuildingControl.Proofs.Model.Join
import BuildingControl.Proofs.Model.Keyword
import BuildingControl.Proofs.Model.Kind
import BuildingControl.Proofs.Model.Label
import BuildingControl.Proofs.Model.Merge
import BuildingControl.Proofs.Model.Reading
import BuildingControl.Proofs.Model.Slot
import BuildingControl.Proofs.Number.Decimals
import BuildingControl.Proofs.Number.Exact
import BuildingControl.Proofs.Number.Fields
import BuildingControl.Proofs.Number.Literal
import BuildingControl.Proofs.Number.Negation
import BuildingControl.Proofs.Number.NonFinite
import BuildingControl.Proofs.Number.Order
import BuildingControl.Proofs.Number.Overflow
import BuildingControl.Proofs.Number.Rounding
import BuildingControl.Proofs.Number.Written
import BuildingControl.Proofs.Project.Accepted
import BuildingControl.Proofs.Project.Build
import BuildingControl.Proofs.Project.Conversion
import BuildingControl.Proofs.Project.Declared
import BuildingControl.Proofs.Project.Grouping
import BuildingControl.Proofs.Project.Listing
import BuildingControl.Proofs.Project.Manager
import BuildingControl.Proofs.Project.Outcome
import BuildingControl.Proofs.Project.Reordering
import BuildingControl.Proofs.Project.Schedule
import BuildingControl.Proofs.Project.Sound
import BuildingControl.Proofs.Project.Upgrade
import BuildingControl.Proofs.Quantity
import BuildingControl.Proofs.Service.Rule
import BuildingControl.Proofs.Text.Letter
import BuildingControl.Proofs.Text.Trim
