import AgentFlow.Address
import AgentFlow.Address.Label
import AgentFlow.Address.Letters
import AgentFlow.Address.Numeric
import AgentFlow.Address.Punycode
import AgentFlow.Agent.Bundled
import AgentFlow.Agent.Fetch
import AgentFlow.Agent.Index
import AgentFlow.Agent.Link
import AgentFlow.Agent.Mention
import AgentFlow.Calendar
import AgentFlow.Decimal.Double
import AgentFlow.Decimal.Layout
import AgentFlow.Decimal.Numeral
import AgentFlow.Decimal.Shortest
import AgentFlow.Decimal.Sum
import AgentFlow.Graph.Check
import AgentFlow.Graph.Description
import AgentFlow.Graph.Document
import AgentFlow.Graph.Fragment
import AgentFlow.Graph.Reference
import AgentFlow.Graph.Scope
import AgentFlow.Json.Reader
import AgentFlow.Json.Writer
import AgentFlow.Problem
import AgentFlow.Schema.Member
import AgentFlow.Schema.Number
import AgentFlow.Schema.Position
import AgentFlow.Script.Binding
import AgentFlow.Script.Conversion
import AgentFlow.Script.Cursor
import AgentFlow.Script.Grammar.Expression
import AgentFlow.Script.Grammar.Goal
import AgentFlow.Script.Grammar.Member
import AgentFlow.Script.Grammar.Statement
import AgentFlow.Script.GraphLiteral
import AgentFlow.Script.Lexeme
import AgentFlow.Script.Literal.Escape
import AgentFlow.Script.Literal.Number
import AgentFlow.Script.Locate
import AgentFlow.Script.Parse
import AgentFlow.Script.Position
import AgentFlow.Script.Tree
import AgentFlow.Script.Grammar.Type
import AgentFlow.Service.Body
import AgentFlow.Service.Call
import AgentFlow.Service.Origin
import AgentFlow.Service.Request
import AgentFlow.Service.Response
import AgentFlow.Service.Route
import AgentFlow.Service.Step
import AgentFlow.Settings
import AgentFlow.Text.Basic
import AgentFlow.Text.Blank
import AgentFlow.Text.Case
import AgentFlow.Text.Digit
import AgentFlow.Text.Encoding
import AgentFlow.Text.Lines
import AgentFlow.Text.Printable
import AgentFlow.Text.Quoted
import AgentFlow.Text.Units
import AgentFlow.Value.Basic
import AgentFlow.Value.Display
import AgentFlow.Yaml.Block
import AgentFlow.Yaml.Document
import AgentFlow.Yaml.Draft
import AgentFlow.Yaml.Error
import AgentFlow.Yaml.Meaning
import AgentFlow.Yaml.Merge
import AgentFlow.Yaml.Node
import AgentFlow.Yaml.Plain
import AgentFlow.Yaml.Property
import AgentFlow.Yaml.Quoted
import AgentFlow.Yaml.Read
import AgentFlow.Yaml.Scalar
import AgentFlow.Yaml.Source
import AgentFlow.Yaml.Tag
import AgentFlow.Yaml.Token
import AgentFlow.Yaml.TokenStream
import AgentFlow.Proofs.Text.Encoding
import AgentFlow.Proofs.Text.Split
import AgentFlow.Proofs.Text.Units
import AgentFlow.Proofs.Decimal.Digits
import AgentFlow.Proofs.Decimal.Numeral
import AgentFlow.Proofs.Decimal.Rounding
import AgentFlow.Proofs.Decimal.Nearest
import AgentFlow.Proofs.Decimal.Shortest
import AgentFlow.Proofs.Json.Number
import AgentFlow.Proofs.Json.String
import AgentFlow.Proofs.Value.Plain
import AgentFlow.Proofs.Value.Merge
import AgentFlow.Proofs.Json.RoundTrip
import AgentFlow.Proofs.Script.Plan
import AgentFlow.Proofs.Script.Termination
import AgentFlow.Proofs.Script.CycleGuard
import AgentFlow.Proofs.Script.PlainData
import AgentFlow.Proofs.Graph.PlainGraph
import AgentFlow.Proofs.Script.GraphText
import AgentFlow.Proofs.Graph.Placement
import AgentFlow.Proofs.Graph.Identity
import AgentFlow.Proofs.Graph.Reports
import AgentFlow.Proofs.Json.Values
import AgentFlow.Proofs.Graph.Completeness
import AgentFlow.Proofs.Value.Printable
import AgentFlow.Proofs.Graph.Texts
import AgentFlow.Proofs.Graph.Drawable
import AgentFlow.Proofs.Graph.Flowchart
import AgentFlow.Proofs.Graph.Reference
import AgentFlow.Proofs.Graph.Template
import AgentFlow.Proofs.Graph.Segments
import AgentFlow.Proofs.Graph.Outline
import AgentFlow.Proofs.Graph.Edges
import AgentFlow.Proofs.Graph.ClassLines
import AgentFlow.Proofs.Graph.LineCount
import AgentFlow.Proofs.Graph.Strokes
import AgentFlow.Proofs.Graph.Indentation
import AgentFlow.Proofs.Graph.Blocks
import AgentFlow.Proofs.Service.Diagram
import AgentFlow.Proofs.Service.History
import AgentFlow.Proofs.Service.Overlap
import AgentFlow.Proofs.Script.Naming
import AgentFlow.Proofs.Script.Search
import AgentFlow.Proofs.Script.Enclosing
import AgentFlow.Proofs.Script.Layout
import AgentFlow.Proofs.Script.Layout.Cursor
import AgentFlow.Proofs.Script.Layout.Goal
import AgentFlow.Proofs.Script.Layout.Type
import AgentFlow.Proofs.Script.Layout.Member
import AgentFlow.Proofs.Script.Layout.Expression
import AgentFlow.Proofs.Script.Layout.Statement
import AgentFlow.Proofs.Script.Layout.Script
import AgentFlow.Proofs.Script.Earliest
import AgentFlow.Proofs.Script.Escape
import AgentFlow.Proofs.Script.StringElement
import AgentFlow.Proofs.Script.StringLiteral
import AgentFlow.Proofs.Script.NumberLiteral
import AgentFlow.Proofs.Script.Members
import AgentFlow.Proofs.Script.Widening
import AgentFlow.Proofs.Script.Failure
import AgentFlow.Proofs.Service.ObjectValue
import AgentFlow.Proofs.Script.Place
import AgentFlow.Proofs.Agent.Reading
import AgentFlow.Proofs.Agent.Coverage
import AgentFlow.Proofs.Agent.Lookup
import AgentFlow.Proofs.Agent.Answers
import AgentFlow.Proofs.Agent.Underline
import AgentFlow.Proofs.Agent.Agreement
import AgentFlow.Proofs.Agent.Hover
import AgentFlow.Proofs.Agent.Fallback
import AgentFlow.Proofs.Agent.LineEnding
