import GrammarFile.Catalog
import GrammarFile.CommandLine.Argument
import GrammarFile.CommandLine.Read
import GrammarFile.CommandLine.Run
import GrammarFile.CommandLine.Similarity
import GrammarFile.CommandLine.Usage
import GrammarFile.Diagnostic
import GrammarFile.Expectation.Basic
import GrammarFile.Expectation.Check
import GrammarFile.Files.Basic
import GrammarFile.Files.Path
import GrammarFile.Files.Tree
import GrammarFile.Format.File
import GrammarFile.Format.Registry
import GrammarFile.Format.Render
import GrammarFile.Format.Spec
import GrammarFile.Format.Tags
import GrammarFile.Format.Tokens
import GrammarFile.Format.Treeviz
import GrammarFile.Json.Basic
import GrammarFile.Json.Reader
import GrammarFile.Json.Writer
import GrammarFile.Lint
import GrammarFile.Lint.Check
import GrammarFile.Lint.Index
import GrammarFile.Lint.Issue
import GrammarFile.Main
import GrammarFile.Number.Binary64
import GrammarFile.Number.Width
import GrammarFile.Outline.Basic
import GrammarFile.Outline.Json
import GrammarFile.Outline.OfGrammar
import GrammarFile.Parse.Error
import GrammarFile.Parse.File
import GrammarFile.Parse.Rule
import GrammarFile.Parse.Rules
import GrammarFile.Pattern.Basic
import GrammarFile.Pattern.CharSet
import GrammarFile.Pattern.Error
import GrammarFile.Pattern.Escape
import GrammarFile.Pattern.Meaning
import GrammarFile.Pattern.Property
import GrammarFile.Pattern.PropertyNames
import GrammarFile.Pattern.Read
import GrammarFile.Proofs.Catalog
import GrammarFile.Proofs.CommandLine.Outcome
import GrammarFile.Proofs.Derivation.Models
import GrammarFile.Proofs.Derivation.OfTree
import GrammarFile.Proofs.Derivation.Parse
import GrammarFile.Proofs.Derivation.Rules
import GrammarFile.Proofs.Derivation.Table
import GrammarFile.Proofs.Formats.Drawing
import GrammarFile.Proofs.Formats.Labels
import GrammarFile.Proofs.Formats.Listings
import GrammarFile.Proofs.Formats.NodeTypes
import GrammarFile.Proofs.Formats.Specs
import GrammarFile.Proofs.Formats.Tags
import GrammarFile.Proofs.Indexed.Advance
import GrammarFile.Proofs.Indexed.Agreement
import GrammarFile.Proofs.Indexed.File
import GrammarFile.Proofs.Indexed.Following
import GrammarFile.Proofs.Indexed.Positions
import GrammarFile.Proofs.Indexed.Rounds
import GrammarFile.Proofs.Indexed.Tape
import GrammarFile.Proofs.Json.Outline
import GrammarFile.Proofs.Json.Reading
import GrammarFile.Proofs.Json.Scalars
import GrammarFile.Proofs.Lexing.Failure
import GrammarFile.Proofs.Lexing.Lexeme
import GrammarFile.Proofs.Lexing.LineFeed
import GrammarFile.Proofs.Lexing.Literals
import GrammarFile.Proofs.Lexing.LongestMatch
import GrammarFile.Proofs.Lexing.Partition
import GrammarFile.Proofs.Lexing.Spacing
import GrammarFile.Proofs.Lexing.Splitting
import GrammarFile.Proofs.Lexing.TokenClass
import GrammarFile.Proofs.Lint.Checks
import GrammarFile.Proofs.Lint.Groups
import GrammarFile.Proofs.Lint.Index
import GrammarFile.Proofs.Lint.Occurrence
import GrammarFile.Proofs.Lint.Patterns
import GrammarFile.Proofs.Lint.Reachability
import GrammarFile.Proofs.Lint.Regexes
import GrammarFile.Proofs.Lint.ScannerStates
import GrammarFile.Proofs.Locations.Diagnostics
import GrammarFile.Proofs.Locations.Elsewhere
import GrammarFile.Proofs.Locations.Erase
import GrammarFile.Proofs.Locations.Layout
import GrammarFile.Proofs.Locations.Lint
import GrammarFile.Proofs.Locations.Nesting
import GrammarFile.Proofs.Locations.Order
import GrammarFile.Proofs.Locations.Outline
import GrammarFile.Proofs.Locations.Pieces
import GrammarFile.Proofs.Locations.Ranges
import GrammarFile.Proofs.Locations.Recovery
import GrammarFile.Proofs.Locations.Run
import GrammarFile.Proofs.Locations.SourceLines
import GrammarFile.Proofs.OutlineText
import GrammarFile.Proofs.Parsing.Along
import GrammarFile.Proofs.Parsing.Attempt
import GrammarFile.Proofs.Parsing.Brackets
import GrammarFile.Proofs.Parsing.Closing
import GrammarFile.Proofs.Parsing.Decided
import GrammarFile.Proofs.Parsing.Depth
import GrammarFile.Proofs.Parsing.File
import GrammarFile.Proofs.Parsing.FileRule
import GrammarFile.Proofs.Parsing.FirstToken
import GrammarFile.Proofs.Parsing.Levels
import GrammarFile.Proofs.Parsing.Locality
import GrammarFile.Proofs.Parsing.Reads
import GrammarFile.Proofs.Parsing.Viable
import GrammarFile.Proofs.Printing
import GrammarFile.Proofs.Recovery.CorrectPrefix
import GrammarFile.Proofs.Recovery.Declarations
import GrammarFile.Proofs.Recovery.Expected
import GrammarFile.Proofs.Recovery.Faults
import GrammarFile.Proofs.Recovery.FirstError
import GrammarFile.Proofs.Recovery.Limit
import GrammarFile.Proofs.Recovery.NestingLimit
import GrammarFile.Proofs.Recovery.Progress
import GrammarFile.Proofs.Recovery.Segments
import GrammarFile.Proofs.Recovery.StraySemicolon
import GrammarFile.Proofs.RoundTrip
import GrammarFile.Proofs.Settings.Assign
import GrammarFile.Proofs.Settings.Fields
import GrammarFile.Proofs.Settings.Layers
import GrammarFile.Proofs.Source.Excerpt
import GrammarFile.Proofs.Source.Position
import GrammarFile.Proofs.Text.Digits
import GrammarFile.Proofs.Text.Escapes
import GrammarFile.Proofs.Text.Lines
import GrammarFile.Proofs.Text.Quoted
import GrammarFile.Proofs.Toml.DistinctNames
import GrammarFile.Proofs.Walk.Names
import GrammarFile.Proofs.Walk.Nodes
import GrammarFile.Proofs.Walk.Pick
import GrammarFile.Proofs.Walk.Tokens
import GrammarFile.Proofs.WellFormed
import GrammarFile.Proofs.Yield
import GrammarFile.Settings.Basic
import GrammarFile.Settings.Convert
import GrammarFile.Settings.Error
import GrammarFile.Settings.Key
import GrammarFile.Settings.Load
import GrammarFile.Settings.Value
import GrammarFile.Source.Excerpt
import GrammarFile.Source.Position
import GrammarFile.Text.Alphabetic
import GrammarFile.Text.Ascending
import GrammarFile.Text.Blank
import GrammarFile.Text.Cased
import GrammarFile.Text.Controls
import GrammarFile.Text.Digits
import GrammarFile.Text.GraphemeExtend
import GrammarFile.Text.Lowercase
import GrammarFile.Text.Numeric
import GrammarFile.Text.Quoted
import GrammarFile.Text.Unprintable
import GrammarFile.Token.Basic
import GrammarFile.Token.Lexer
import GrammarFile.Token.Name
import GrammarFile.Toml.Fault
import GrammarFile.Toml.Moment
import GrammarFile.Toml.Number
import GrammarFile.Toml.Quoted
import GrammarFile.Toml.Reader
import GrammarFile.Toml.Table
import GrammarFile.Toml.Value
import GrammarFile.Tree.Basic
import GrammarFile.Tree.Display
import GrammarFile.Tree.Symbols
import GrammarFile.Tree.Walk
import GrammarFile.Yaml.Scalar
import GrammarFile.Yaml.Writer
