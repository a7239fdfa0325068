import Emitter.Bytes
import Emitter.Constant.Basic
import Emitter.Constant.Decode
import Emitter.Constant.Integer
import Emitter.Constant.Json
import Emitter.Constant.Record
import Emitter.Diff
import Emitter.Disk.Basic
import Emitter.Error
import Emitter.Format
import Emitter.Include
import Emitter.Json.Number
import Emitter.Json.Printer
import Emitter.Json.Reader
import Emitter.Json.Value
import Emitter.Json.View
import Emitter.Number.Binary
import Emitter.Number.Fraction
import Emitter.Number.General
import Emitter.Options.Basic
import Emitter.Options.Toml
import Emitter.Output
import Emitter.Path.Basic
import Emitter.Path.Lexical
import Emitter.Proofs.Layout.Line
import Emitter.Proofs.Layout.Rendering
import Emitter.Proofs.Layout.Structured
import Emitter.Proofs.Layout.Chunks
import Emitter.Proofs.Script.Operations
import Emitter.Proofs.Writer.Lifecycle
import Emitter.Registry
import Emitter.Script.Act
import Emitter.Script.Bench
import Emitter.Script.Workspace
import Emitter.Session.Basic
import Emitter.Session.FileLog
import Emitter.Session.FileName
import Emitter.Settings
import Emitter.Table
import Emitter.Text.Ascii
import Emitter.Text.Blank
import Emitter.Text.Digit
import Emitter.Text.Lines
import Emitter.Text.Printable
import Emitter.Text.Quoted
import Emitter.Text.Utf16
import Emitter.Text.Utf32
import Emitter.Text.Utf8
import Emitter.Toml.Reader
import Emitter.Toml.Value
import Emitter.Writer.Basic
import Emitter.Writer.Dialect
import Emitter.Writer.Draft
import Emitter.Writer.Finish
import Emitter.Writer.Hook
import Emitter.Writer.Scope
import Emitter.Proofs.Path.Names
import Emitter.Proofs.Disk.Reservation
import Emitter.Proofs.Output.Exclusion
import Emitter.Proofs.Session.FileName
import Emitter.Proofs.Session.Renaming
import Emitter.Proofs.Session.Bookkeeping
import Emitter.Proofs.Disk.Removal
import Emitter.Proofs.Session.Outputs
import Emitter.Proofs.Path.Below
import Emitter.Proofs.Text.Utf8
import Emitter.Proofs.Text.Boundary
import Emitter.Proofs.Session.LogText
import Emitter.Proofs.Session.Roundtrip
import Emitter.Proofs.Text.Units
import Emitter.Proofs.Text.Faithful
import Emitter.Proofs.Constant.Strings
import Emitter.Proofs.Constant.Payloads
import Emitter.Proofs.Constant.Records
import Emitter.Proofs.Constant.Integers
import Emitter.Proofs.Number.Nearest
import Emitter.Proofs.Number.Significant
import Emitter.Proofs.Json.Numeral
import Emitter.Proofs.Number.Layout
import Emitter.Proofs.Constant.Floats
import Emitter.Proofs.Scope.Calls
import Emitter.Proofs.Writer.Finishing
import Emitter.Proofs.Text.Lines
import Emitter.Proofs.Scope.Return
import Emitter.Proofs.Include.Order
import Emitter.Proofs.Path.Canonical
import Emitter.Proofs.Path.Relative
import Emitter.Proofs.Writer.Retry
import Emitter.Proofs.Include.Preamble
import Emitter.Proofs.Include.Stable
import Emitter.Proofs.Script.Later
import Emitter.Proofs.Include.Edits
import Emitter.Proofs.Include.Committed
import Emitter.Proofs.Include.Named
import Emitter.Proofs.Disk.Nameless
import Emitter.Proofs.Session.Neighbours
import Emitter.Proofs.Writer.Steps
import Emitter.Proofs.Layout.Outline
import Emitter.Proofs.Layout.Separation
import Emitter.Proofs.Session.Cleaning
import Emitter.Proofs.Number.Exact
import Emitter.Proofs.Json.Quoted
import Emitter.Proofs.Json.Written
import Emitter.Proofs.Constant.Json
import Emitter.Proofs.Constant.Literal
import Emitter.Proofs.Writer.LineEnds
import Emitter.Proofs.Diff.Report
import Emitter.Proofs.Path.Composition
import Emitter.Proofs.Path.LastName
import Emitter.Proofs.Session.Fitting
import Emitter.Proofs.Session.Refitting
