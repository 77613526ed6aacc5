import FragmentLint.Bridge.Child
import FragmentLint.Bridge.Fault
import FragmentLint.Bridge.Script
import FragmentLint.Bridge.Session
import FragmentLint.Bridge.Settings
import FragmentLint.Bridge.Shared
import FragmentLint.CommandLine.Arguments
import FragmentLint.CommandLine.Files
import FragmentLint.CommandLine.Path
import FragmentLint.CommandLine.Run
import FragmentLint.ConfigFault
import FragmentLint.Diagnostic.Basic
import FragmentLint.Diagnostic.Code
import FragmentLint.Diagnostic.Template
import FragmentLint.Diagnostic.TokenHint
import FragmentLint.Failure.Basic
import FragmentLint.Failure.FreeText
import FragmentLint.Failure.Shape
import FragmentLint.Failure.Structured
import FragmentLint.Family
import FragmentLint.FaultKind
import FragmentLint.Fragment.Basic
import FragmentLint.Fragment.Carrier
import FragmentLint.Fragment.Entity
import FragmentLint.Fragment.Extractor
import FragmentLint.Json.Basic
import FragmentLint.Json.Literal
import FragmentLint.Json.Printer
import FragmentLint.Json.Reader
import FragmentLint.Line
import FragmentLint.Lint.Documents
import FragmentLint.Lint.Enabled
import FragmentLint.Main
import FragmentLint.Markdown.Blocks
import FragmentLint.Markdown.Marker
import FragmentLint.Markdown.RawHtml
import FragmentLint.Markdown.Reference
import FragmentLint.Markdown.Row
import FragmentLint.Mode
import FragmentLint.Notice
import FragmentLint.Number.Basic
import FragmentLint.Number.Binary64
import FragmentLint.Number.Reading
import FragmentLint.Number.Shortest
import FragmentLint.Parser.Diagram
import FragmentLint.Parser.Formula
import FragmentLint.Parser.Reply
import FragmentLint.Parser.Site
import FragmentLint.Position
import FragmentLint.Proofs.Acceptance
import FragmentLint.Proofs.Answers
import FragmentLint.Proofs.Visits
import FragmentLint.Report.Entry
import FragmentLint.Report.Format
import FragmentLint.Rule.Basic
import FragmentLint.Rule.Options
import FragmentLint.Text.Basic
import FragmentLint.Text.Blank
import FragmentLint.Text.Digit
import FragmentLint.Text.Folding
import FragmentLint.Text.Letter
import FragmentLint.Text.Printable
import FragmentLint.Text.Quoted
import FragmentLint.Text.Ranges
import FragmentLint.Text.Units
import FragmentLint.Text.Utf8
import FragmentLint.Text.Word
import FragmentLint.Token
import FragmentLint.Validation.Pipeline
import FragmentLint.Validation.Precheck
import FragmentLint.Validation.Run
import FragmentLint.Validation.Verdict
import FragmentLint.ValueFault
import FragmentLint.Proofs.FailClosed
import FragmentLint.Proofs.ArrivalOrder
import FragmentLint.Proofs.Lockstep
import FragmentLint.Proofs.StartupMemo
import FragmentLint.Proofs.Custody
import FragmentLint.Proofs.Breakdowns
import FragmentLint.Proofs.SessionFaults
import FragmentLint.Proofs.DiagramBreakdowns
import FragmentLint.Proofs.LineAnchors
import FragmentLint.Proofs.UnitOffsets
import FragmentLint.Proofs.Handshake
import FragmentLint.Proofs.StrayOutput
import FragmentLint.Proofs.JsonText
import FragmentLint.Proofs.JsonWeight
import FragmentLint.Proofs.Framing
import FragmentLint.Proofs.DiagramFailures
import FragmentLint.Proofs.CarrierScan
import FragmentLint.Proofs.RequestLines
import FragmentLint.Proofs.Turns
import FragmentLint.Proofs.Tasks
import FragmentLint.Proofs.RunAccount
import FragmentLint.Proofs.Renumbering
import FragmentLint.Proofs.Isolation
import FragmentLint.Proofs.Escapes
import FragmentLint.Proofs.CarrierRoundTrip
import FragmentLint.Proofs.StructuralCheck
import FragmentLint.Proofs.Defects
import FragmentLint.Proofs.Rendering
import FragmentLint.Proofs.ReportLines
import FragmentLint.Proofs.Assembly
import FragmentLint.Proofs.Configuration
import FragmentLint.Proofs.CommandRuns
import FragmentLint.Proofs.KeptStartup
import FragmentLint.Proofs.RequestText
import FragmentLint.Proofs.SpilledLines
import FragmentLint.Proofs.SimpleReports
import FragmentLint.Proofs.FirstPlaces
import FragmentLint.Proofs.PointedReports
import FragmentLint.Proofs.HeaderLines
import FragmentLint.Proofs.EchoedSource
import FragmentLint.Proofs.ExpectedKinds
import FragmentLint.Proofs.FormulaFailures
import FragmentLint.Proofs.TagNames
import FragmentLint.Proofs.TimeLimits
import FragmentLint.Proofs.Offsets
import FragmentLint.Proofs.Lifetime
