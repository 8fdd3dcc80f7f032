import Worksheet.Address
import Worksheet.CommandLine.Arguments
import Worksheet.CommandLine.Commands
import Worksheet.CommandLine.Host
import Worksheet.CommandLine.Likeness
import Worksheet.Config
import Worksheet.Date.Calendar
import Worksheet.Date.Instant
import Worksheet.Date.Reading
import Worksheet.Date.Words
import Worksheet.Display.Basic
import Worksheet.Display.Figure
import Worksheet.Display.Locale
import Worksheet.Display.Regions
import Worksheet.Fault
import Worksheet.Format
import Worksheet.Formula.Evaluation
import Worksheet.Formula.Lexer
import Worksheet.Formula.Node
import Worksheet.Formula.Parser
import Worksheet.Formula.References
import Worksheet.Formula.Token
import Worksheet.Json.Reader
import Worksheet.Json.Writer
import Worksheet.Log.Event
import Worksheet.Log.Journal
import Worksheet.Log.Sink
import Worksheet.Main
import Worksheet.Number.Arithmetic
import Worksheet.Number.Binary
import Worksheet.Number.Conversion
import Worksheet.Number.Numeral
import Worksheet.Number.Precision
import Worksheet.Number.Shortest
import Worksheet.Proofs.Dialogue
import Worksheet.Proofs.Freshness
import Worksheet.Proofs.ListedReferences
import Worksheet.Proofs.Meaning
import Worksheet.Proofs.Occurrences
import Worksheet.Proofs.ParsedTrees
import Worksheet.Proofs.Recursion
import Worksheet.Proofs.ReferenceGraph
import Worksheet.Proofs.Requests
import Worksheet.Proofs.Transparency
import Worksheet.Record
import Worksheet.Session.Basic
import Worksheet.Session.Cell
import Worksheet.Session.Memo
import Worksheet.Session.Run
import Worksheet.Sheet.Basic
import Worksheet.Sheet.Clipboard
import Worksheet.Sheet.Edit
import Worksheet.Text.Blank
import Worksheet.Text.Digit
import Worksheet.Text.Letter
import Worksheet.Text.Lower
import Worksheet.Text.Printable
import Worksheet.Text.Quoted
import Worksheet.Text.Split
import Worksheet.Text.Title
import Worksheet.Text.Upper
import Worksheet.Text.Utf8
import Worksheet.Value
import Worksheet.Workbook
import Worksheet.Yaml.Complaint
import Worksheet.Yaml.Cursor
import Worksheet.Yaml.Document
import Worksheet.Yaml.Lexer
import Worksheet.Yaml.Node
import Worksheet.Yaml.Parser
import Worksheet.Yaml.Scalar
import Worksheet.Yaml.Schema
import Worksheet.Yaml.Timestamp
import Worksheet.Yaml.Token
import Worksheet.Proofs.Grammar
import Worksheet.Proofs.Recognition
import Worksheet.Proofs.RequestOrder
import Worksheet.Proofs.CellNames
import Worksheet.Proofs.FrameLoop
import Worksheet.Proofs.Bookkeeping
import Worksheet.Proofs.Resolutions
import Worksheet.Proofs.NormalFormats
import Worksheet.Proofs.StoredCells
import Worksheet.Proofs.RejectedEdits
import Worksheet.Proofs.Unwinding
import Worksheet.Proofs.Visits
import Worksheet.Proofs.StorageShapes
import Worksheet.Proofs.DoubleRange
import Worksheet.Proofs.Faults
import Worksheet.Proofs.RangeFaults
import Worksheet.Proofs.Limits
import Worksheet.Proofs.PlainAddresses
import Worksheet.Proofs.Reindexing
import Worksheet.Proofs.Termination
import Worksheet.Proofs.DecimalPrecision
import Worksheet.Proofs.Rendering
import Worksheet.Proofs.Numerals
import Worksheet.Proofs.Lexemes
import Worksheet.Proofs.RangeArguments
import Worksheet.Proofs.PointEdits
import Worksheet.Proofs.BlockEdits
import Worksheet.Proofs.Dimensions
import Worksheet.Proofs.Lookups
import Worksheet.Proofs.Statistics
import Worksheet.Proofs.ErrorReport
import Worksheet.Proofs.JsonLines
import Worksheet.Proofs.JournalTail
import Worksheet.Proofs.Rectangles
import Worksheet.Proofs.CanonicalFormats
import Worksheet.Proofs.LineFeeds
import Worksheet.Proofs.JsonLimits
import Worksheet.Proofs.LogReading
import Worksheet.Proofs.ForeignLines
import Worksheet.Proofs.ClipboardGrids
import Worksheet.Proofs.CursorMoves
import Worksheet.Proofs.Lookahead
import Worksheet.Proofs.Blanks
import Worksheet.Proofs.NumeralPattern
import Worksheet.Proofs.NumericText
