import UnionView.Attribute.Arguments
import UnionView.Attribute.Attachment
import UnionView.Command.Arguments
import UnionView.Command.Error
import UnionView.Command.Run
import UnionView.Command.Usage
import UnionView.Decimal.Double
import UnionView.Decimal.Shortest
import UnionView.Diagnostic
import UnionView.Directory.Basic
import UnionView.Directory.Discovery
import UnionView.Dispatch.Basic
import UnionView.Dispatch.Emission
import UnionView.Dispatch.Evaluation
import UnionView.Dispatch.Expansion
import UnionView.Dispatch.Match
import UnionView.Example.Panels
import UnionView.Example.Tab
import UnionView.Grammar.Attribute
import UnionView.Grammar.Basic
import UnionView.Grammar.Expression
import UnionView.Grammar.File
import UnionView.Grammar.Function
import UnionView.Grammar.Generics
import UnionView.Grammar.Item
import UnionView.Grammar.Path
import UnionView.Grammar.Pattern
import UnionView.Grammar.Statement
import UnionView.Grammar.Type
import UnionView.Main
import UnionView.NameMap
import UnionView.Proofs.Dispatch.Branches
import UnionView.Proofs.Dispatch.Drawing
import UnionView.Proofs.Dispatch.Outcome
import UnionView.Proofs.Grammar.Attribute
import UnionView.Proofs.Grammar.Declaration
import UnionView.Proofs.Grammar.Item
import UnionView.Proofs.Syntax.Reader
import UnionView.Renderer
import UnionView.Settings.Basic
import UnionView.Settings.File
import UnionView.Settings.Json
import UnionView.Settings.Loading
import UnionView.Source.Report
import UnionView.Source.Selection
import UnionView.Syntax.Fault
import UnionView.Syntax.Path
import UnionView.Syntax.Reader
import UnionView.Syntax.Terminal
import UnionView.Syntax.Tree
import UnionView.Text.CharClass
import UnionView.Text.Position
import UnionView.Text.Quoted
import UnionView.Text.Ranges
import UnionView.Token.Basic
import UnionView.Token.Lexer
import UnionView.Token.Literal
import UnionView.Token.Printer
import UnionView.Union.Basic
import UnionView.Union.Extraction
import UnionView.Union.Validation
import UnionView.View.Element
import UnionView.View.Store
import UnionView.Proofs.Attribute.Agreement
import UnionView.Proofs.Source.Report
import UnionView.Proofs.Attribute.Attachment
import UnionView.Proofs.Dispatch.Parameters
import UnionView.Proofs.Text.CharClass
import UnionView.Proofs.Syntax.Path
import UnionView.Proofs.Settings.Override
import UnionView.Proofs.Command.Settings
import UnionView.Proofs.Grammar.WrittenPath
import UnionView.Proofs.Settings.Runtime
import UnionView.Proofs.Command.Status
import UnionView.Proofs.Grammar.Module
import UnionView.Proofs.Source.Request
import UnionView.Proofs.Reading.Artifact
import UnionView.Proofs.Source.Selection
import UnionView.Proofs.Directory.Discovery
import UnionView.Proofs.Command.Isolation
import UnionView.Proofs.Command.Delivery
import UnionView.Proofs.Command.InvalidSettings
import UnionView.Proofs.Command.Unmatched
import UnionView.Proofs.Command.Order
import UnionView.Proofs.Dispatch.Placement
import UnionView.Proofs.Syntax.Writing
import UnionView.Proofs.Writing.Generics
import UnionView.Proofs.Writing.Grammar
import UnionView.Proofs.Source.Traversal
import UnionView.Proofs.Directory.Walk
import UnionView.Proofs.NameMap
import UnionView.Proofs.Grammar.PathValue
import UnionView.Proofs.Syntax.CommaList
import UnionView.Proofs.Attribute.Arguments
import UnionView.Proofs.Attribute.Layering
import UnionView.Proofs.Writing.Item
import UnionView.Proofs.Writing.Value
import UnionView.Proofs.Settings.Soundness
import UnionView.Proofs.Dispatch.Soundness
import UnionView.Proofs.Source.Dispatchers
import UnionView.Proofs.Command.GeneratedCode
import UnionView.Proofs.View.Element
import UnionView.Proofs.Settings.Edit
import UnionView.Proofs.Grammar.Keyword
import UnionView.Proofs.Union.Location
import UnionView.Proofs.Dispatch.RawName
import UnionView.Proofs.Text.ByteOrder
import UnionView.Proofs.Renderer
