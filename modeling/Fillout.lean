import Fillout.Bytes
import Fillout.Calendar.Compact
import Fillout.Calendar.Date
import Fillout.Calendar.Reading
import Fillout.Context
import Fillout.Decimal.Shortest
import Fillout.Digest.Blake3
import Fillout.Expr.Basic
import Fillout.Expr.Eval
import Fillout.Expr.Operator
import Fillout.Expr.Reader
import Fillout.Expr.Report
import Fillout.Json.Basic
import Fillout.Json.Reader
import Fillout.Json.Writer
import Fillout.Proofs.Calendar.Forms
import Fillout.Proofs.Calendar.Readings
import Fillout.Proofs.Calendar.WholeWords
import Fillout.Proofs.Calendar.Writings
import Fillout.Proofs.Expr.Closings
import Fillout.Proofs.Expr.FindRule
import Fillout.Proofs.Expr.Formula
import Fillout.Proofs.Expr.Nesting
import Fillout.Proofs.Expr.Printing
import Fillout.Proofs.Expr.Reading
import Fillout.Proofs.Expr.Scan
import Fillout.Proofs.Expr.Words
import Fillout.Proofs.Json.RoundTrip
import Fillout.Proofs.Record.RoundTrip
import Fillout.Proofs.Regex.BackReferences
import Fillout.Proofs.Regex.Groups
import Fillout.Proofs.Rule.Pattern
import Fillout.Proofs.Rule.Predicates
import Fillout.Proofs.Search.Afresh
import Fillout.Proofs.Search.Asking
import Fillout.Proofs.Search.BestForm
import Fillout.Proofs.Search.BestRun
import Fillout.Proofs.Search.BestText
import Fillout.Proofs.Search.Clocked
import Fillout.Proofs.Search.Completeness
import Fillout.Proofs.Search.Consulted
import Fillout.Proofs.Search.Derivation
import Fillout.Proofs.Search.Direct
import Fillout.Proofs.Search.Dominance
import Fillout.Proofs.Search.Forms
import Fillout.Proofs.Search.InTurn
import Fillout.Proofs.Search.Independence
import Fillout.Proofs.Search.Limit
import Fillout.Proofs.Search.Lockstep
import Fillout.Proofs.Search.Offers
import Fillout.Proofs.Search.Origins
import Fillout.Proofs.Search.Potential
import Fillout.Proofs.Search.Renumbering
import Fillout.Proofs.Search.Returns
import Fillout.Proofs.Search.SideBySide
import Fillout.Proofs.Search.SurveyRun
import Fillout.Proofs.Search.SurveyTurn
import Fillout.Proofs.Search.Switch
import Fillout.Proofs.Search.Termination
import Fillout.Proofs.Search.Transparency
import Fillout.Proofs.Search.Traversal
import Fillout.Proofs.Search.Turn
import Fillout.Proofs.Search.Unfilled
import Fillout.Proofs.Search.Unsettled
import Fillout.Proofs.Selection.Basic
import Fillout.Proofs.Selection.Inapplicable
import Fillout.Proofs.Selection.Tiers
import Fillout.Proofs.Snapshot.Admission
import Fillout.Proofs.Snapshot.Frame
import Fillout.Proofs.Snapshot.Framing
import Fillout.Proofs.Snapshot.Payload
import Fillout.Proofs.Snapshot.RoundTrip
import Fillout.Proofs.Store.Changes
import Fillout.Proofs.Store.Dependents
import Fillout.Proofs.Store.FirstOfEach
import Fillout.Proofs.Store.KeptViews
import Fillout.Proofs.Store.OwnPattern
import Fillout.Proofs.Store.Reachable
import Fillout.Proofs.Store.Refusals
import Fillout.Proofs.Store.SaveAndLoad
import Fillout.Proofs.Store.Views
import Fillout.Proofs.Store.WellKept
import Fillout.Proofs.Template.Balance
import Fillout.Proofs.Template.Completion
import Fillout.Proofs.Template.Cutting
import Fillout.Proofs.Template.Delimiters
import Fillout.Proofs.Template.Entries
import Fillout.Proofs.Template.Flat
import Fillout.Proofs.Template.Inert
import Fillout.Proofs.Template.QuotedEntries
import Fillout.Proofs.Template.References
import Fillout.Proofs.Template.Score
import Fillout.Proofs.Template.Spans
import Fillout.Proofs.Text.Numbers
import Fillout.Proofs.Text.Trimming
import Fillout.Proofs.Unicode.Classes
import Fillout.Record.Error
import Fillout.Record.OfJson
import Fillout.Record.Stream
import Fillout.Regex.Automaton
import Fillout.Regex.CharSet
import Fillout.Regex.Parser
import Fillout.Regex.Pattern
import Fillout.Regex.Program
import Fillout.Regex.Property
import Fillout.Regex.Replacement
import Fillout.Regex.Size
import Fillout.Regex.Utf8
import Fillout.Resolve.Agenda
import Fillout.Resolve.Best
import Fillout.Resolve.Candidates
import Fillout.Resolve.Engine
import Fillout.Resolve.Environment
import Fillout.Resolve.Search
import Fillout.Resolve.Selection
import Fillout.Rule.Basic
import Fillout.Rule.Kind
import Fillout.Rule.Matching
import Fillout.Snapshot.Frame
import Fillout.Snapshot.Payload
import Fillout.Snapshot.Restore
import Fillout.Snapshot.Varint
import Fillout.Store.Basic
import Fillout.Store.File
import Fillout.Template
import Fillout.Text.Basic
import Fillout.Text.EditDistance
import Fillout.Text.Quoted
import Fillout.Unicode.Age
import Fillout.Unicode.BinaryProperty
import Fillout.Unicode.CaseFold
import Fillout.Unicode.Casing
import Fillout.Unicode.Category
import Fillout.Unicode.CodeSet
import Fillout.Unicode.Emoji
import Fillout.Unicode.Identifier
import Fillout.Unicode.Invisible
import Fillout.Unicode.Letter
import Fillout.Unicode.Mark
import Fillout.Unicode.Property
import Fillout.Unicode.Punctuation
import Fillout.Unicode.Runs
import Fillout.Unicode.Script
import Fillout.Unicode.Segmentation
import Fillout.Proofs.Store.InPlace
