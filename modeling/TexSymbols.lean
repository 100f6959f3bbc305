import TexSymbols.Attributes
import TexSymbols.Attributes.Inherit
import TexSymbols.Attributes.Run
import TexSymbols.Catalogue
import TexSymbols.Catalogue.Closure
import TexSymbols.Catalogue.Hierarchy
import TexSymbols.Catalogue.Reader
import TexSymbols.Decimal
import TexSymbols.Decimal.Single
import TexSymbols.Dependencies
import TexSymbols.Dependencies.Resolver
import TexSymbols.Files.Inputs
import TexSymbols.Files.Path
import TexSymbols.Files.Pattern
import TexSymbols.Files.Tree
import TexSymbols.Listing.Compact
import TexSymbols.Listing.Error
import TexSymbols.Listing.Inspection
import TexSymbols.Listing.Nomenclature
import TexSymbols.Listing.Order
import TexSymbols.Listing.Selection
import TexSymbols.Listing.Table
import TexSymbols.Location
import TexSymbols.Log
import TexSymbols.Lookahead
import TexSymbols.Main
import TexSymbols.OrderedMap
import TexSymbols.Program.Arguments
import TexSymbols.Program.Inspect
import TexSymbols.Program.Load
import TexSymbols.Program.Run
import TexSymbols.Program.Stage
import TexSymbols.Proofs.Attributes.Run
import TexSymbols.Proofs.Catalogue.Operations
import TexSymbols.Proofs.Lookahead
import TexSymbols.Proofs.OrderedMap
import TexSymbols.Proofs.Reader.Groups
import TexSymbols.Proofs.Reader.Progress
import TexSymbols.Proofs.Text.Split
import TexSymbols.ReadError
import TexSymbols.Section
import TexSymbols.Symbol
import TexSymbols.Tex.Argument
import TexSymbols.Tex.Command
import TexSymbols.Tex.Comment
import TexSymbols.Tex.Definition
import TexSymbols.Tex.Group
import TexSymbols.Tex.LongTable
import TexSymbols.Tex.Style
import TexSymbols.Text
import TexSymbols.Text.Blank
import TexSymbols.Text.Quoted
import TexSymbols.Text.Utf8
import TexSymbols.Text.Visible
import TexSymbols.Token
import TexSymbols.Token.Stream
import TexSymbols.Usage
import TexSymbols.Usage.Yaml
import TexSymbols.Warning
import TexSymbols.Yaml.Block
import TexSymbols.Yaml.Chars
import TexSymbols.Yaml.Cursor
import TexSymbols.Yaml.Document
import TexSymbols.Yaml.Event
import TexSymbols.Yaml.Event.Grammar
import TexSymbols.Yaml.Gap
import TexSymbols.Yaml.Implicit
import TexSymbols.Yaml.Node
import TexSymbols.Yaml.Plain
import TexSymbols.Yaml.Quoted
import TexSymbols.Yaml.Scalar
import TexSymbols.Yaml.Tag
import TexSymbols.Yaml.Token
import TexSymbols.Yaml.Token.Stream
import TexSymbols.Proofs.Reader.Pulls
import TexSymbols.Proofs.Reader.Outcome
import TexSymbols.Proofs.Reader.Refinement
import TexSymbols.Proofs.Catalogue.WellFormed
import TexSymbols.Proofs.Catalogue.Runs
import TexSymbols.Proofs.Token.Stream
import TexSymbols.Proofs.Reader.Acceptance
import TexSymbols.Proofs.Text.Lines
import TexSymbols.Proofs.Symbol.Regenerate
import TexSymbols.Proofs.Attributes.Inherit
import TexSymbols.Proofs.Catalogue.Extension
import TexSymbols.Proofs.Catalogue.History
import TexSymbols.Proofs.Catalogue.Inheritance
import TexSymbols.Proofs.Catalogue.Failure
import TexSymbols.Proofs.Catalogue.Hierarchy
import TexSymbols.Proofs.Results
import TexSymbols.Proofs.Listing.Nomenclature
import TexSymbols.Proofs.Catalogue.Search
import TexSymbols.Proofs.Catalogue.Closure
import TexSymbols.Proofs.Catalogue.Sequence
import TexSymbols.Proofs.Listing.Agreement
import TexSymbols.Proofs.Text.Distinct
import TexSymbols.Proofs.Text.Trim
import TexSymbols.Proofs.Token.Cursor
import TexSymbols.Proofs.Token.Partition
import TexSymbols.Proofs.Usage.Appearance
import TexSymbols.Proofs.Usage.Recorded
import TexSymbols.Proofs.Tex.Argument
import TexSymbols.Proofs.Usage.NearestLabel
import TexSymbols.Proofs.Token.Content
import TexSymbols.Proofs.Text.Quoted
import TexSymbols.Proofs.Listing.Compact
import TexSymbols.Proofs.Text.Utf8
import TexSymbols.Proofs.Text.Visible
import TexSymbols.Proofs.Yaml.Plain
import TexSymbols.Proofs.Yaml.Quoted
import TexSymbols.Proofs.Yaml.Block
import TexSymbols.Proofs.Yaml.Lexer
import TexSymbols.Proofs.Yaml.Value
import TexSymbols.Proofs.Yaml.Event
import TexSymbols.Proofs.Usage.Tokens
import TexSymbols.Proofs.Usage.Nodes
import TexSymbols.Proofs.Usage.Readable
import TexSymbols.Proofs.Usage.RoundTrip
import TexSymbols.Proofs.Reader.Transcript
import TexSymbols.Proofs.Catalogue.Comparison
import TexSymbols.Proofs.Catalogue.Linking
import TexSymbols.Proofs.Catalogue.Reservation
import TexSymbols.Proofs.Catalogue.Vocabulary
import TexSymbols.Proofs.Reader.Concatenation
import TexSymbols.Proofs.Catalogue.Concatenation
import TexSymbols.Proofs.Dependencies.Search
import TexSymbols.Proofs.Dependencies.Levels
import TexSymbols.Proofs.Dependencies.Memory
import TexSymbols.Proofs.Dependencies.Calls
import TexSymbols.Proofs.Dependencies.Acyclic
import TexSymbols.Proofs.Catalogue.Families
import TexSymbols.Proofs.Catalogue.Contiguity
import TexSymbols.Proofs.Text.Run
import TexSymbols.Proofs.Usage.LabelPlaces
import TexSymbols.Proofs.Tex.Opening
import TexSymbols.Proofs.Tex.Printed
import TexSymbols.Proofs.Tex.Layout
import TexSymbols.Proofs.Token.Recognition
import TexSymbols.Proofs.Files.Order
import TexSymbols.Proofs.Program.Stage
import TexSymbols.Proofs.Program.Load
import TexSymbols.Proofs.Program.Run
import TexSymbols.Proofs.Tex.Command
import TexSymbols.Proofs.Tex.ArgumentPlace
import TexSymbols.Proofs.Tex.BackslashRun
import TexSymbols.Proofs.Tex.Comment
import TexSymbols.Proofs.Tex.GroupSearch
import TexSymbols.Proofs.Dependencies.Inclusion
import TexSymbols.Proofs.Catalogue.Trees
import TexSymbols.Proofs.Catalogue.OneLine
import TexSymbols.Proofs.Usage.Merge
import TexSymbols.Proofs.Listing.Nomenclature.Symbols
import TexSymbols.Proofs.Listing.Nomenclature.Table
import TexSymbols.Proofs.Listing.Nomenclature.Entries
import TexSymbols.Proofs.Listing.Nomenclature.Explanation
import TexSymbols.Proofs.Tex.Escape
import TexSymbols.Proofs.Lookahead.Requests
import TexSymbols.Proofs.Usage.Grouping
import TexSymbols.Proofs.Listing.Selection
import TexSymbols.Proofs.Attributes.Gathering
import TexSymbols.Proofs.Text.Order
import TexSymbols.Proofs.Listing.Order
import TexSymbols.Proofs.Listing.Table
import TexSymbols.Proofs.Files.Canonical
