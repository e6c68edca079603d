import Stencil.Binding.Argument
import Stencil.Binding.Json
import Stencil.Binding.Properties
import Stencil.Binding.Properties.Writing
import Stencil.Command.Arguments
import Stencil.Command.Run
import Stencil.Expr.Error
import Stencil.Expr.Eval
import Stencil.Expr.Grammar
import Stencil.Expr.Identifier
import Stencil.Expr.Library
import Stencil.Expr.Printer
import Stencil.Expr.Substitution
import Stencil.Expr.Syntax
import Stencil.Expr.Value
import Stencil.Loading.Cache
import Stencil.Loading.Error
import Stencil.Loading.Files
import Stencil.Loading.Loader
import Stencil.Loading.Source
import Stencil.Main
import Stencil.Markup.Builder
import Stencil.Markup.Entity
import Stencil.Markup.Error
import Stencil.Markup.Event
import Stencil.Markup.Location
import Stencil.Markup.Mark
import Stencil.Markup.Node
import Stencil.Markup.Tag
import Stencil.Markup.Tree
import Stencil.Number.Binary64
import Stencil.Number.Decimal
import Stencil.Number.Radix
import Stencil.Number.Shortest
import Stencil.Number.Whole
import Stencil.Output.Event
import Stencil.Output.Forest
import Stencil.Output.Fragment
import Stencil.Output.Recording
import Stencil.Output.Writer
import Stencil.Template.Copy
import Stencil.Template.Diagnostic
import Stencil.Template.Directive
import Stencil.Template.Interpreter
import Stencil.Template.Loop
import Stencil.Template.Machine
import Stencil.Template.Options
import Stencil.Template.Processor
import Stencil.Template.Reading
import Stencil.Template.Scope
import Stencil.Text.Blank
import Stencil.Text.Case
import Stencil.Text.CodeRanges
import Stencil.Text.Composition
import Stencil.Text.Letter
import Stencil.Text.Lines
import Stencil.Text.Mark
import Stencil.Text.Quoted
import Stencil.Text.Search
import Stencil.Text.Units
import Stencil.Url.Basic
import Stencil.Url.FilePath
import Stencil.Url.Host
import Stencil.Url.Name
import Stencil.Url.Name.Direction
import Stencil.Url.Name.Folding
import Stencil.Url.Name.Joining
import Stencil.Url.Parse
import Stencil.Url.Path
import Stencil.Url.Percent
import Stencil.Url.Punycode
import Stencil.Proofs.Template.Congruence
import Stencil.Proofs.Template.Frame
import Stencil.Proofs.Output.Delivery
import Stencil.Proofs.Template.Delivery
import Stencil.Proofs.Output.Chunks
import Stencil.Proofs.Template.Oblivious
import Stencil.Proofs.Output.Balance
import Stencil.Proofs.Template.Balance
import Stencil.Proofs.Template.Nesting
import Stencil.Proofs.Template.Simulation
import Stencil.Proofs.Template.Termination
import Stencil.Proofs.Template.Guard
import Stencil.Proofs.Markup.Preorder
import Stencil.Proofs.Markup.Building
import Stencil.Proofs.Markup.Flattening
import Stencil.Proofs.Markup.Arena
import Stencil.Proofs.Text.Cutting
import Stencil.Proofs.Expr.Scanning
import Stencil.Proofs.Expr.Reading
import Stencil.Proofs.Expr.Splicing
import Stencil.Proofs.Expr.Tokens
import Stencil.Proofs.Expr.Precedence
import Stencil.Proofs.Expr.Printing
import Stencil.Proofs.Expr.RoundTrip
import Stencil.Proofs.Output.Streaming
import Stencil.Proofs.Markup.Escaping
import Stencil.Proofs.Markup.Tags
import Stencil.Proofs.Markup.Resolved
import Stencil.Proofs.Markup.Data
import Stencil.Proofs.Markup.Scanning
import Stencil.Proofs.Output.Reading
import Stencil.Proofs.Template.Literal
import Stencil.Proofs.Template.Copying
import Stencil.Proofs.Template.Loaded
import Stencil.Proofs.Template.Emission
import Stencil.Proofs.Template.Provenance
import Stencil.Proofs.Template.Declared
import Stencil.Proofs.Template.Namespaces
import Stencil.Proofs.Markup.Lookup
import Stencil.Proofs.Loading.Sharing
import Stencil.Proofs.Template.Replacing
import Stencil.Proofs.Template.Correspondence
import Stencil.Proofs.Url.Hosts
import Stencil.Proofs.Url.Paths
import Stencil.Proofs.Url.Parsed
import Stencil.Proofs.Loading.Filled
import Stencil.Proofs.Template.Reported
import Stencil.Proofs.Template.Transparency
import Stencil.Proofs.Template.Caching
import Stencil.Proofs.Output.Moves
import Stencil.Proofs.Output.Html
import Stencil.Proofs.Output.Layout
import Stencil.Proofs.Output.Indentation
import Stencil.Proofs.Template.Expansion
import Stencil.Proofs.Template.Bases
import Stencil.Proofs.Markup.Noting
import Stencil.Proofs.Output.Marks
import Stencil.Proofs.Output.Replay
import Stencil.Proofs.Markup.Sections
import Stencil.Proofs.Output.Formatting
import Stencil.Proofs.Template.Formatting
import Stencil.Proofs.Output.Passages
import Stencil.Proofs.Template.Inversion
import Stencil.Proofs.Template.Texts
import Stencil.Proofs.Expr.Qualifiers
import Stencil.Proofs.Template.Anchors
import Stencil.Proofs.Template.Faults
import Stencil.Proofs.Template.Qualifiers
import Stencil.Proofs.Template.Redefinition
import Stencil.Proofs.Expr.Twins
import Stencil.Proofs.Template.Comments
import Stencil.Proofs.Template.Deletion
import Stencil.Proofs.Number.Rounding
import Stencil.Proofs.Number.Packing
import Stencil.Proofs.Number.Sums
import Stencil.Proofs.Number.Moving
import Stencil.Proofs.Template.Loops
import Stencil.Proofs.Template.Floating
import Stencil.Proofs.Template.Gathering
import Stencil.Proofs.Template.Ranges
import Stencil.Proofs.Template.Switch
import Stencil.Proofs.Expr.Arithmetic
import Stencil.Proofs.Number.Comparing
import Stencil.Proofs.Expr.Comparison
import Stencil.Proofs.Expr.Keys
import Stencil.Proofs.Expr.Equality
import Stencil.Proofs.Command.Keys
import Stencil.Proofs.Expr.Names
import Stencil.Proofs.Template.Names
import Stencil.Proofs.Command.Names
import Stencil.Proofs.Template.Scoping
import Stencil.Proofs.Template.Locators
import Stencil.Proofs.Template.Overriding
import Stencil.Proofs.Template.Locating
import Stencil.Proofs.Number.Digits
import Stencil.Proofs.Binding.Spelling
import Stencil.Proofs.Expr.Searching
import Stencil.Proofs.Template.Edges
import Stencil.Proofs.Binding.Escaping
import Stencil.Proofs.Binding.Folding
import Stencil.Proofs.Expr.Division
import Stencil.Proofs.Binding.Units
import Stencil.Proofs.Command.Order
import Stencil.Proofs.Command.Starting
import Stencil.Proofs.Markup.Placeless
import Stencil.Proofs.Output.Fronts
import Stencil.Proofs.Template.Alongside
import Stencil.Proofs.Template.Silence
import Stencil.Proofs.Template.Doctypes
import Stencil.Proofs.Expr.Indexing
import Stencil.Proofs.Markup.Lines
