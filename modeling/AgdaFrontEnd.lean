import AgdaFrontEnd.Batch
import AgdaFrontEnd.Binary64
import AgdaFrontEnd.Binary64.Shortest
import AgdaFrontEnd.Check
import AgdaFrontEnd.Command
import AgdaFrontEnd.CommandLine.Arguments
import AgdaFrontEnd.CommandLine.Options
import AgdaFrontEnd.CommandLine.Run
import AgdaFrontEnd.CommandLine.Usage
import AgdaFrontEnd.Compile
import AgdaFrontEnd.Disk.Access
import AgdaFrontEnd.Disk.Basic
import AgdaFrontEnd.Disk.Resolve
import AgdaFrontEnd.Disk.Sources
import AgdaFrontEnd.Hole
import AgdaFrontEnd.Integer
import AgdaFrontEnd.Json.Display
import AgdaFrontEnd.Json.Reader
import AgdaFrontEnd.Json.Value
import AgdaFrontEnd.Json.Writer
import AgdaFrontEnd.Location
import AgdaFrontEnd.Main
import AgdaFrontEnd.Path
import AgdaFrontEnd.Proofs.Batch
import AgdaFrontEnd.Proofs.Batch.Accounts
import AgdaFrontEnd.Proofs.Binary64.Rounding
import AgdaFrontEnd.Proofs.Binary64.Shortest
import AgdaFrontEnd.Proofs.Check.Causes
import AgdaFrontEnd.Proofs.Check.Composition
import AgdaFrontEnd.Proofs.Check.Course
import AgdaFrontEnd.Proofs.Check.Dialects
import AgdaFrontEnd.Proofs.Check.History
import AgdaFrontEnd.Proofs.Check.Loading
import AgdaFrontEnd.Proofs.Check.Parts
import AgdaFrontEnd.Proofs.Check.Protocol
import AgdaFrontEnd.Proofs.Check.Silence
import AgdaFrontEnd.Proofs.Check.Verdict
import AgdaFrontEnd.Proofs.Command
import AgdaFrontEnd.Proofs.CommandLine.Accord
import AgdaFrontEnd.Proofs.CommandLine.Arguments
import AgdaFrontEnd.Proofs.CommandLine.Outcome
import AgdaFrontEnd.Proofs.CommandLine.Run
import AgdaFrontEnd.Proofs.Compile.Description
import AgdaFrontEnd.Proofs.Compile.Fresh
import AgdaFrontEnd.Proofs.Compile.Literal
import AgdaFrontEnd.Proofs.Compile.Native
import AgdaFrontEnd.Proofs.Compile.Package
import AgdaFrontEnd.Proofs.Compile.Program
import AgdaFrontEnd.Proofs.Compile.Script
import AgdaFrontEnd.Proofs.Computation
import AgdaFrontEnd.Proofs.Disk.Change
import AgdaFrontEnd.Proofs.Disk.Descent
import AgdaFrontEnd.Proofs.Disk.Discovery
import AgdaFrontEnd.Proofs.Disk.Removal
import AgdaFrontEnd.Proofs.Disk.Sources
import AgdaFrontEnd.Proofs.Disk.Table
import AgdaFrontEnd.Proofs.Disk.Tree
import AgdaFrontEnd.Proofs.Disk.Walk
import AgdaFrontEnd.Proofs.Hole.Decomposition
import AgdaFrontEnd.Proofs.Hole.Marked
import AgdaFrontEnd.Proofs.Json.Ascii
import AgdaFrontEnd.Proofs.Json.Faults
import AgdaFrontEnd.Proofs.Json.Number
import AgdaFrontEnd.Proofs.Json.RoundTrip
import AgdaFrontEnd.Proofs.Location
import AgdaFrontEnd.Proofs.Location.Written
import AgdaFrontEnd.Proofs.Render.Mismatch
import AgdaFrontEnd.Proofs.Render.SingleLine
import AgdaFrontEnd.Proofs.Render.Snippet
import AgdaFrontEnd.Proofs.Render.Stripping
import AgdaFrontEnd.Proofs.Render.Terminal
import AgdaFrontEnd.Proofs.Render.Unbound
import AgdaFrontEnd.Proofs.Render.Unstyling
import AgdaFrontEnd.Proofs.Report.Block
import AgdaFrontEnd.Proofs.Report.Colourless
import AgdaFrontEnd.Proofs.Report.Display
import AgdaFrontEnd.Proofs.Report.Feeds
import AgdaFrontEnd.Proofs.Report.Findings
import AgdaFrontEnd.Proofs.Report.LostMessages
import AgdaFrontEnd.Proofs.Response.Classification
import AgdaFrontEnd.Proofs.Response.Composition
import AgdaFrontEnd.Proofs.Response.Decoding
import AgdaFrontEnd.Proofs.Response.Decomposition
import AgdaFrontEnd.Proofs.Response.JsonRoundTrip
import AgdaFrontEnd.Proofs.Response.LineFeeds
import AgdaFrontEnd.Proofs.Response.Quoted
import AgdaFrontEnd.Proofs.Response.Reading
import AgdaFrontEnd.Proofs.Response.Streaming
import AgdaFrontEnd.Proofs.Response.TextRoundTrip
import AgdaFrontEnd.Proofs.Session.ErrorOutput
import AgdaFrontEnd.Proofs.Session.Lifetimes
import AgdaFrontEnd.Proofs.Session.Line
import AgdaFrontEnd.Proofs.Session.Numbering
import AgdaFrontEnd.Proofs.Session.Reply
import AgdaFrontEnd.Proofs.Session.Together
import AgdaFrontEnd.Proofs.Text.Decimal
import AgdaFrontEnd.Proofs.Text.Margins
import AgdaFrontEnd.Proofs.Text.Occurrence
import AgdaFrontEnd.Proofs.Tools
import AgdaFrontEnd.Proofs.Tools.Plain
import AgdaFrontEnd.Proofs.Utf8
import AgdaFrontEnd.Proofs.Utf8.Partial
import AgdaFrontEnd.Proofs.Utf8.Replacement
import AgdaFrontEnd.Proofs.World.Lifetimes
import AgdaFrontEnd.Proofs.World.Output
import AgdaFrontEnd.Render.Message
import AgdaFrontEnd.Render.Snippet
import AgdaFrontEnd.Render.Style
import AgdaFrontEnd.Report.Block
import AgdaFrontEnd.Report.Extractor
import AgdaFrontEnd.Report.Item
import AgdaFrontEnd.Response.Quoted
import AgdaFrontEnd.Response.Record
import AgdaFrontEnd.Response.Shape
import AgdaFrontEnd.Response.Unit
import AgdaFrontEnd.Session
import AgdaFrontEnd.Session.Line
import AgdaFrontEnd.SourceRange
import AgdaFrontEnd.Text.Basic
import AgdaFrontEnd.Text.Blank
import AgdaFrontEnd.Text.CodePoints
import AgdaFrontEnd.Text.Cut
import AgdaFrontEnd.Text.Digit
import AgdaFrontEnd.Text.LowerCase
import AgdaFrontEnd.Text.Printable
import AgdaFrontEnd.Text.Quoted
import AgdaFrontEnd.Tools
import AgdaFrontEnd.Utf8
import AgdaFrontEnd.World.Basic
import AgdaFrontEnd.World.Failure
import AgdaFrontEnd.World.Journal
import AgdaFrontEnd.World.Process
import AgdaFrontEnd.World.Transcript
