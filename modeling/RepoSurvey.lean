import RepoSurvey.Analysis
import RepoSurvey.Assessment
import RepoSurvey.Binary64
import RepoSurvey.Codec
import RepoSurvey.CommandLine
import RepoSurvey.Decimal.Layout
import RepoSurvey.Decimal.Numeral
import RepoSurvey.Decimal.Shortest
import RepoSurvey.Decoded
import RepoSurvey.Decoded.Scalar
import RepoSurvey.Drift
import RepoSurvey.Failure
import RepoSurvey.Family
import RepoSurvey.Family.Go
import RepoSurvey.Family.Python
import RepoSurvey.Family.Rust
import RepoSurvey.Family.Script
import RepoSurvey.Graph.Adjacency
import RepoSurvey.Graph.Cycles
import RepoSurvey.Graph.Diagram
import RepoSurvey.Json.Parser
import RepoSurvey.Json.Printer
import RepoSurvey.Keyed
import RepoSurvey.Kind
import RepoSurvey.Language
import RepoSurvey.Log
import RepoSurvey.Logged
import RepoSurvey.Main
import RepoSurvey.Manifest.Codec
import RepoSurvey.Moment
import RepoSurvey.Named
import RepoSurvey.Notice
import RepoSurvey.Number
import RepoSurvey.Path
import RepoSurvey.PathIndex
import RepoSurvey.Project
import RepoSurvey.Proofs.Analysis
import RepoSurvey.Proofs.Analysis.Contributions
import RepoSurvey.Proofs.Analysis.Edges
import RepoSurvey.Proofs.Analysis.Exclusion
import RepoSurvey.Proofs.Analysis.Insertion
import RepoSurvey.Proofs.Analysis.Isolation
import RepoSurvey.Proofs.Analysis.Languages
import RepoSurvey.Proofs.Analysis.Limits
import RepoSurvey.Proofs.Analysis.Names
import RepoSurvey.Proofs.Analysis.Paths
import RepoSurvey.Proofs.Analysis.Percentages
import RepoSurvey.Proofs.Analysis.Reordering
import RepoSurvey.Proofs.Analysis.Sizes
import RepoSurvey.Proofs.Analysis.Targets
import RepoSurvey.Proofs.Analysis.Types
import RepoSurvey.Proofs.Analysis.Verbatim
import RepoSurvey.Proofs.Assessment
import RepoSurvey.Proofs.Assessment.Account
import RepoSurvey.Proofs.Assessment.Dependencies
import RepoSurvey.Proofs.Assessment.Rounding
import RepoSurvey.Proofs.Binary64.Error
import RepoSurvey.Proofs.Binary64.Integer
import RepoSurvey.Proofs.Binary64.Order
import RepoSurvey.Proofs.Binary64.Range
import RepoSurvey.Proofs.Binary64.Rounding
import RepoSurvey.Proofs.Binary64.Threshold
import RepoSurvey.Proofs.Codec.Restores
import RepoSurvey.Proofs.Codec.Tells
import RepoSurvey.Proofs.Decimal.Integer
import RepoSurvey.Proofs.Drift
import RepoSurvey.Proofs.Drift.Dependencies
import RepoSurvey.Proofs.Family.Go
import RepoSurvey.Proofs.Family.Python
import RepoSurvey.Proofs.Family.Python.Exports
import RepoSurvey.Proofs.Family.Script
import RepoSurvey.Proofs.Fields
import RepoSurvey.Proofs.Graph.Acyclic
import RepoSurvey.Proofs.Graph.Arc
import RepoSurvey.Proofs.Graph.Iterations
import RepoSurvey.Proofs.Graph.Labels
import RepoSurvey.Proofs.Graph.Numbering
import RepoSurvey.Proofs.Graph.Pieces
import RepoSurvey.Proofs.Graph.Search
import RepoSurvey.Proofs.Graph.Walk
import RepoSurvey.Proofs.Json.Keys
import RepoSurvey.Proofs.Keyed
import RepoSurvey.Proofs.Path
import RepoSurvey.Proofs.Ranking
import RepoSurvey.Proofs.Reference
import RepoSurvey.Proofs.Reference.Directory
import RepoSurvey.Proofs.Reference.Index
import RepoSurvey.Proofs.Reference.Spelling
import RepoSurvey.Proofs.Reference.Subdirectory
import RepoSurvey.Proofs.Risk
import RepoSurvey.Proofs.Risk.Coupling
import RepoSurvey.Proofs.Risk.Dependencies
import RepoSurvey.Proofs.Risk.Heatmap
import RepoSurvey.Proofs.Risk.Location
import RepoSurvey.Proofs.Scan
import RepoSurvey.Proofs.Scan.Covers
import RepoSurvey.Proofs.Score
import RepoSurvey.Proofs.Score.Exactness
import RepoSurvey.Proofs.Settings.Environment
import RepoSurvey.Proofs.Settings.Faults
import RepoSurvey.Proofs.Settings.Layers
import RepoSurvey.Proofs.Settings.Tables
import RepoSurvey.Proofs.Slot
import RepoSurvey.Proofs.Snapshot.Attempt
import RepoSurvey.Proofs.Snapshot.Comparable
import RepoSurvey.Proofs.Snapshot.Recovery
import RepoSurvey.Proofs.Snapshot.RoundTrip
import RepoSurvey.Proofs.Sublist
import RepoSurvey.Proofs.Text.Lower
import RepoSurvey.Proofs.Value.Same
import RepoSurvey.Proofs.Value.Size
import RepoSurvey.Proofs.Workspace.Links
import RepoSurvey.Proofs.Workspace.Manifests
import RepoSurvey.Proofs.Workspace.Root
import RepoSurvey.Record
import RepoSurvey.Record.Shown
import RepoSurvey.Report
import RepoSurvey.Report.Codec
import RepoSurvey.Resolution
import RepoSurvey.Risk
import RepoSurvey.Rule
import RepoSurvey.Scan
import RepoSurvey.Score
import RepoSurvey.Service
import RepoSurvey.Settings
import RepoSurvey.Settings.Builtin
import RepoSurvey.Settings.Codec
import RepoSurvey.Settings.Environment
import RepoSurvey.Settings.Load
import RepoSurvey.Snapshot
import RepoSurvey.Snapshot.Codec
import RepoSurvey.Snapshot.Recovery
import RepoSurvey.Text.Blank
import RepoSurvey.Text.Case
import RepoSurvey.Text.CaseTable
import RepoSurvey.Text.Digit
import RepoSurvey.Text.DigitTable
import RepoSurvey.Text.Lines
import RepoSurvey.Text.Printable
import RepoSurvey.Text.PrintableTable
import RepoSurvey.Text.Quoted
import RepoSurvey.Text.Ranges
import RepoSurvey.Text.Split
import RepoSurvey.Text.Utf8
import RepoSurvey.Text.Word
import RepoSurvey.Text.WordTable
import RepoSurvey.Toml.Parser
import RepoSurvey.Toml.Scalar
import RepoSurvey.Toml.Tree
import RepoSurvey.Value
import RepoSurvey.Value.Display
import RepoSurvey.Value.Integer
import RepoSurvey.Value.Same
import RepoSurvey.Value.Template
import RepoSurvey.Workspace
