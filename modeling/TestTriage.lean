import TestTriage.Bundle
import TestTriage.Bundle.Json
import TestTriage.CommandLine
import TestTriage.Correlation
import TestTriage.Decimal.Binary64
import TestTriage.Decimal.Shortest
import TestTriage.Event
import TestTriage.FailureIndex
import TestTriage.Feed
import TestTriage.FileTree
import TestTriage.Go.Calls
import TestTriage.Go.Declaration
import TestTriage.Go.Diagnosis
import TestTriage.Go.Grammar
import TestTriage.Go.Grammar.Goal
import TestTriage.Go.Grammar.Items
import TestTriage.Go.Grammar.Statements
import TestTriage.Go.Grammar.Terms
import TestTriage.Go.Grammar.Types
import TestTriage.Go.Letter
import TestTriage.Go.Lexeme
import TestTriage.Go.Node
import TestTriage.Go.Pieces
import TestTriage.Go.Rule
import TestTriage.Go.Scan
import TestTriage.Go.SourceFile
import TestTriage.Json.Quoted
import TestTriage.Json.Reader
import TestTriage.Json.Scalar
import TestTriage.Json.Skip
import TestTriage.Json.Value
import TestTriage.Locate
import TestTriage.Log
import TestTriage.Main
import TestTriage.NameSet
import TestTriage.Pairing
import TestTriage.Path
import TestTriage.Problem
import TestTriage.Proofs.BundleLines
import TestTriage.Proofs.BundleObjects
import TestTriage.Proofs.Bundling
import TestTriage.Proofs.CommandLine
import TestTriage.Proofs.Conservation
import TestTriage.Proofs.Failing
import TestTriage.Proofs.FeedJoining
import TestTriage.Proofs.FeedLines
import TestTriage.Proofs.Fences
import TestTriage.Proofs.Go.CommentText
import TestTriage.Proofs.Go.Cutting
import TestTriage.Proofs.Go.DocComment
import TestTriage.Proofs.Go.Excerpt
import TestTriage.Proofs.Go.Expansion
import TestTriage.Proofs.Go.FenceLines
import TestTriage.Proofs.Go.Placement
import TestTriage.Proofs.Go.RawStrings
import TestTriage.Proofs.Go.RawStrings.Statements
import TestTriage.Proofs.Go.RawStrings.Terms
import TestTriage.Proofs.Go.Spans
import TestTriage.Proofs.Go.Spelling
import TestTriage.Proofs.Go.Traversal
import TestTriage.Proofs.Grouping
import TestTriage.Proofs.Halting
import TestTriage.Proofs.Interleaving
import TestTriage.Proofs.Json.Grammar
import TestTriage.Proofs.Json.Numerals
import TestTriage.Proofs.Json.Outline
import TestTriage.Proofs.Json.Reading
import TestTriage.Proofs.Json.Rows
import TestTriage.Proofs.Json.Strings
import TestTriage.Proofs.Json.Tokens
import TestTriage.Proofs.Json.Writing
import TestTriage.Proofs.Layering
import TestTriage.Proofs.Locating
import TestTriage.Proofs.Merging
import TestTriage.Proofs.NameOrder
import TestTriage.Proofs.Names
import TestTriage.Proofs.Pairing
import TestTriage.Proofs.Paths
import TestTriage.Proofs.Printing
import TestTriage.Proofs.Recording
import TestTriage.Proofs.Regrouping
import TestTriage.Proofs.Rescan
import TestTriage.Proofs.Resolving
import TestTriage.Proofs.SummaryLines
import TestTriage.Proofs.TestLog
import TestTriage.Proofs.Text.Decoding
import TestTriage.Proofs.Text.Encoding
import TestTriage.Proofs.Text.Lines
import TestTriage.Proofs.Text.Rows
import TestTriage.Proofs.Toml.Keys
import TestTriage.Proofs.Walking
import TestTriage.Proofs.Widening
import TestTriage.Resolution
import TestTriage.Run
import TestTriage.RunLog
import TestTriage.Settings
import TestTriage.Text.Quoted
import TestTriage.Text.Split
import TestTriage.Text.Utf8
import TestTriage.Text.Visible
import TestTriage.Text.WhiteSpace
import TestTriage.Toml.Document
import TestTriage.Toml.Reader
import TestTriage.Toml.Value
import TestTriage.Triage
