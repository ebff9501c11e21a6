import CodeSurvey.Cache
import CodeSurvey.CommandLine.Arguments
import CodeSurvey.CommandLine.Run
import CodeSurvey.CommandLine.Summary
import CodeSurvey.Config.Basic
import CodeSurvey.Config.File
import CodeSurvey.Config.Reader
import CodeSurvey.Config.Template
import CodeSurvey.Config.Writer
import CodeSurvey.Conflict
import CodeSurvey.Count
import CodeSurvey.DeadCode.Report
import CodeSurvey.DeadCode.Score
import CodeSurvey.Decimal
import CodeSurvey.Diagnostic
import CodeSurvey.Discovery
import CodeSurvey.Document.Bounded
import CodeSurvey.Document.Exports
import CodeSurvey.Document.Merge
import CodeSurvey.Document.Module
import CodeSurvey.Document.Project
import CodeSurvey.Document.Write
import CodeSurvey.FileTree
import CodeSurvey.Glob.Matching
import CodeSurvey.Glob.Pattern
import CodeSurvey.Graph.Build
import CodeSurvey.Graph.Chains
import CodeSurvey.Graph.Cycles
import CodeSurvey.Graph.Imports
import CodeSurvey.Graph.Links
import CodeSurvey.Graph.Usage
import CodeSurvey.Ignore
import CodeSurvey.Index.Definitions
import CodeSurvey.Index.File
import CodeSurvey.Index.References
import CodeSurvey.Index.Scope
import CodeSurvey.Index.Symbol
import CodeSurvey.Json
import CodeSurvey.Main
import CodeSurvey.Order
import CodeSurvey.Path
import CodeSurvey.Proofs.Config.Saving
import CodeSurvey.Proofs.Config.Text
import CodeSurvey.Proofs.Conflict.Grouping
import CodeSurvey.Proofs.DeadCode.Confidence
import CodeSurvey.Proofs.DeadCode.Dampening
import CodeSurvey.Proofs.DeadCode.Findings
import CodeSurvey.Proofs.DeadCode.Range
import CodeSurvey.Proofs.DeadCode.Thresholds
import CodeSurvey.Proofs.Document.Bounded
import CodeSurvey.Proofs.Document.Keeping
import CodeSurvey.Proofs.Document.Listing
import CodeSurvey.Proofs.Document.Merge
import CodeSurvey.Proofs.Document.ModuleBudget
import CodeSurvey.Proofs.Document.PageLength
import CodeSurvey.Proofs.Document.Surface
import CodeSurvey.Proofs.Document.Truncation
import CodeSurvey.Proofs.Document.Update
import CodeSurvey.Proofs.Document.Writing
import CodeSurvey.Proofs.Entries
import CodeSurvey.Proofs.FileTree.Directories
import CodeSurvey.Proofs.FileTree.Expansion
import CodeSurvey.Proofs.FileTree.Following
import CodeSurvey.Proofs.FileTree.Spelling
import CodeSurvey.Proofs.FileTree.Variation
import CodeSurvey.Proofs.FileTree.Writing
import CodeSurvey.Proofs.Graph.Carrying
import CodeSurvey.Proofs.Graph.Components
import CodeSurvey.Proofs.Graph.Conservation
import CodeSurvey.Proofs.Graph.CriticalPaths
import CodeSurvey.Proofs.Graph.CycleCoverage
import CodeSurvey.Proofs.Graph.Cycles
import CodeSurvey.Proofs.Graph.Dependencies
import CodeSurvey.Proofs.Graph.ImportGraph
import CodeSurvey.Proofs.Graph.ImportResolution
import CodeSurvey.Proofs.Graph.Links
import CodeSurvey.Proofs.Graph.LongestChains
import CodeSurvey.Proofs.Graph.MoreReferences
import CodeSurvey.Proofs.Index.Edits
import CodeSurvey.Proofs.Index.Exports
import CodeSurvey.Proofs.Index.Forms
import CodeSurvey.Proofs.Index.GlobalNames
import CodeSurvey.Proofs.Index.Ownership
import CodeSurvey.Proofs.Index.Places
import CodeSurvey.Proofs.Index.Positions
import CodeSurvey.Proofs.Index.Qualified
import CodeSurvey.Proofs.Index.Reading
import CodeSurvey.Proofs.Index.ScopeAgreement
import CodeSurvey.Proofs.Index.TopLevel
import CodeSurvey.Proofs.Index.Uses
import CodeSurvey.Proofs.Index.Visits
import CodeSurvey.Proofs.Index.WellFormed
import CodeSurvey.Proofs.Order
import CodeSurvey.Proofs.Path
import CodeSurvey.Proofs.Python.Grammar
import CodeSurvey.Proofs.Python.Lines
import CodeSurvey.Proofs.Python.NamesFirst
import CodeSurvey.Proofs.Python.Shapes
import CodeSurvey.Proofs.Python.Sites
import CodeSurvey.Proofs.Python.Spending
import CodeSurvey.Proofs.Python.Statements
import CodeSurvey.Proofs.Python.Words
import CodeSurvey.Proofs.Survey.Accounting
import CodeSurvey.Proofs.Survey.Apart
import CodeSurvey.Proofs.Survey.Discovery
import CodeSurvey.Proofs.Survey.Eligible
import CodeSurvey.Proofs.Survey.HaltDiagnostics
import CodeSurvey.Proofs.Survey.Models
import CodeSurvey.Proofs.Survey.SharedCache
import CodeSurvey.Proofs.Survey.TextProjects
import CodeSurvey.Proofs.Text.Lines
import CodeSurvey.Proofs.Text.Scanner
import CodeSurvey.Proofs.Toml.Documents
import CodeSurvey.Proofs.Toml.Numbers
import CodeSurvey.Proofs.Toml.Strings
import CodeSurvey.Proofs.Toml.Tables
import CodeSurvey.Proofs.Toml.Values
import CodeSurvey.Python.Expression
import CodeSurvey.Python.Lexeme
import CodeSurvey.Python.Lexer
import CodeSurvey.Python.Module
import CodeSurvey.Python.Node
import CodeSurvey.Python.Pattern
import CodeSurvey.Python.Statement
import CodeSurvey.Python.Token
import CodeSurvey.Python.TokenParser
import CodeSurvey.Report
import CodeSurvey.Scan
import CodeSurvey.Source
import CodeSurvey.Text.Identifier
import CodeSurvey.Text.Lines
import CodeSurvey.Text.LowerCase
import CodeSurvey.Text.Scanner
import CodeSurvey.Text.Utf8
import CodeSurvey.Toml.Reader
import CodeSurvey.Toml.Scalar
import CodeSurvey.Toml.Table
import CodeSurvey.Toml.Value
import CodeSurvey.Toml.Writer
