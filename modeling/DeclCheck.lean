import DeclCheck.Cache
import DeclCheck.Cache.Pack
import DeclCheck.Cache.Record
import DeclCheck.Check.Analysis
import DeclCheck.Check.Lowering
import DeclCheck.Check.Oracle
import DeclCheck.Cli
import DeclCheck.Cli.Check
import DeclCheck.Cli.Command
import DeclCheck.Cli.Error
import DeclCheck.Cli.Flag
import DeclCheck.Cli.Help
import DeclCheck.Cli.Report
import DeclCheck.Cli.Session
import DeclCheck.Cli.Show
import DeclCheck.Cli.Value
import DeclCheck.Config
import DeclCheck.Decimal
import DeclCheck.Diagnostic
import DeclCheck.Diagnostic.Bag
import DeclCheck.Diagnostic.Code
import DeclCheck.Digest
import DeclCheck.Disk
import DeclCheck.Files
import DeclCheck.Main
import DeclCheck.Manifest.Entry
import DeclCheck.Manifest.Load
import DeclCheck.Progress
import DeclCheck.Progress.View
import DeclCheck.Proofs.Cache.Entries
import DeclCheck.Proofs.Cache.History
import DeclCheck.Proofs.Check.Bodies
import DeclCheck.Proofs.Check.Chain
import DeclCheck.Proofs.Check.ClassScope
import DeclCheck.Proofs.Check.Comparison
import DeclCheck.Proofs.Check.Compatibility
import DeclCheck.Proofs.Check.Declarations
import DeclCheck.Proofs.Check.InStep
import DeclCheck.Proofs.Check.Inheritance
import DeclCheck.Proofs.Check.Judging
import DeclCheck.Proofs.Check.Loaded
import DeclCheck.Proofs.Check.Lowering
import DeclCheck.Proofs.Check.Moves
import DeclCheck.Proofs.Check.Order
import DeclCheck.Proofs.Check.Population
import DeclCheck.Proofs.Check.Rules
import DeclCheck.Proofs.Check.Subtyping
import DeclCheck.Proofs.Check.Telling
import DeclCheck.Proofs.Check.Validity
import DeclCheck.Proofs.Check.WellDeclared
import DeclCheck.Proofs.Diagnostic.Shown
import DeclCheck.Proofs.Disk.Changes
import DeclCheck.Proofs.Disk.Tidy
import DeclCheck.Proofs.Manifest.Adding
import DeclCheck.Proofs.Manifest.BaseSpans
import DeclCheck.Proofs.Manifest.Capacity
import DeclCheck.Proofs.Manifest.Grammar
import DeclCheck.Proofs.Manifest.Identifiers
import DeclCheck.Proofs.Manifest.Loading
import DeclCheck.Proofs.Manifest.Names
import DeclCheck.Proofs.Manifest.Outline
import DeclCheck.Proofs.Manifest.Places
import DeclCheck.Proofs.Manifest.Skipping
import DeclCheck.Proofs.Manifest.Spans
import DeclCheck.Proofs.Manifest.Spellings
import DeclCheck.Proofs.Manifest.TypeSyntax
import DeclCheck.Proofs.Manifest.WellFormed
import DeclCheck.Proofs.Progress.Announcing
import DeclCheck.Proofs.Progress.Naming
import DeclCheck.Proofs.Progress.Settled
import DeclCheck.Proofs.Render.Bounds
import DeclCheck.Proofs.Render.Marker
import DeclCheck.Proofs.Render.ShortLines
import DeclCheck.Proofs.Run.Accounts
import DeclCheck.Proofs.Run.Alone
import DeclCheck.Proofs.Run.Checking
import DeclCheck.Proofs.Run.Display
import DeclCheck.Proofs.Run.Events
import DeclCheck.Proofs.Run.Interleaving
import DeclCheck.Proofs.Run.Limit
import DeclCheck.Proofs.Run.Reports
import DeclCheck.Proofs.Run.Threads
import DeclCheck.Proofs.Scope.Tables
import DeclCheck.Proofs.Source.CommonDir
import DeclCheck.Proofs.Source.Lines
import DeclCheck.Proofs.Source.Relative
import DeclCheck.Proofs.Source.Returns
import DeclCheck.Proofs.Source.Tiling
import DeclCheck.Proofs.Steps
import DeclCheck.Proofs.Text.Columns
import DeclCheck.Proofs.Text.Joining
import DeclCheck.Proofs.Text.NormalForm
import DeclCheck.Proofs.Text.Pieces
import DeclCheck.Proofs.Text.Tables
import DeclCheck.Proofs.Text.Trimming
import DeclCheck.Proofs.Trace.Nesting
import DeclCheck.Proofs.Trace.Window
import DeclCheck.Proofs.Tree.Ownership
import DeclCheck.Proofs.Types.Relation
import DeclCheck.Proofs.Types.Shape
import DeclCheck.Render.Json
import DeclCheck.Render.Listing
import DeclCheck.Render.Pretty
import DeclCheck.Render.Scopes
import DeclCheck.Render.Short
import DeclCheck.Run
import DeclCheck.Run.File
import DeclCheck.Run.Files
import DeclCheck.Scope
import DeclCheck.Settings
import DeclCheck.Source.FileSet
import DeclCheck.Source.Lines
import DeclCheck.Source.NameTable
import DeclCheck.Source.Path
import DeclCheck.Source.Span
import DeclCheck.Text
import DeclCheck.Text.Base64
import DeclCheck.Text.Grapheme
import DeclCheck.Text.Letter
import DeclCheck.Text.Normal
import DeclCheck.Text.Normal.CombiningClass
import DeclCheck.Text.Normal.Pairs
import DeclCheck.Text.Normal.Singletons
import DeclCheck.Text.Printable
import DeclCheck.Text.Quoted
import DeclCheck.Text.Utf8
import DeclCheck.Text.Width
import DeclCheck.Timer
import DeclCheck.Toml.Fault
import DeclCheck.Toml.Literal
import DeclCheck.Toml.Reader
import DeclCheck.Toml.Table
import DeclCheck.Trace
import DeclCheck.Trace.Line
import DeclCheck.Trace.Ring
import DeclCheck.Trace.Tracer
import DeclCheck.Tree
import DeclCheck.Tree.Decl
import DeclCheck.Tree.Invariants
import DeclCheck.Types
import DeclCheck.Version
import DeclCheck.Workbench
import DeclCheck.Yaml.Cursor
import DeclCheck.Yaml.Event
import DeclCheck.Yaml.Failure
import DeclCheck.Yaml.Input
import DeclCheck.Yaml.Node
import DeclCheck.Yaml.Number
import DeclCheck.Yaml.Scalar
import DeclCheck.Yaml.Tag
import DeclCheck.Yaml.Token
import DeclCheck.Yaml.TokenStream
