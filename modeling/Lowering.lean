import Lowering.Text.Blank
import Lowering.Text.CodePoint
import Lowering.Text.Utf8
import Lowering.Text.Quoted
import Lowering.Numeric.Binary64
import Lowering.Numeric.Numeral
import Lowering.Json.Reader
import Lowering.Json.Writer
import Lowering.Json.Inspect
import Lowering.Template.Document
import Lowering.Output.Inspect
import Lowering.Output.Item
import Lowering.Output.Render
import Lowering.Diagnostic
import Lowering.Record.Model
import Lowering.Lower.Pass
import Lowering.Session
import Lowering.Session.Pass
import Lowering.Session.Move
import Lowering.Report
import Lowering.CommandLine.Run
import Lowering.Main
import Lowering.Proofs.Settling
import Lowering.Proofs.Inner
import Lowering.Proofs.Standard
import Lowering.Proofs.Equations
import Lowering.Proofs.Run
import Lowering.Proofs.Reading
import Lowering.Proofs.Meaning
import Lowering.Proofs.Shape
import Lowering.Proofs.Hoisting
import Lowering.Proofs.Visits
import Lowering.Proofs.Splicing
import Lowering.Proofs.Images
import Lowering.Proofs.Threading
import Lowering.Proofs.Sessions
import Lowering.Proofs.Loading
import Lowering.Proofs.Dumping
import Lowering.Proofs.Endings
import Lowering.Proofs.Fields
import Lowering.Proofs.Grammar
import Lowering.Proofs.LineEnds
import Lowering.Proofs.Overrides
import Lowering.Proofs.Reloading
import Lowering.Proofs.Written
import Lowering.Proofs.Records
import Lowering.Proofs.Surrogates
import Lowering.Proofs.Lossless
import Lowering.Proofs.Points
import Lowering.Proofs.Layout
import Lowering.Proofs.Erasure
import Lowering.Proofs.Silence
import Lowering.Proofs.FirstError
import Lowering.Proofs.Pieces
import Lowering.Proofs.Denotation
import Lowering.Proofs.AttributeLists
import Lowering.Proofs.Dialects
import Lowering.Proofs.Rendering
import Lowering.Proofs.Brackets
import Lowering.Proofs.RowStarts
import Lowering.Proofs.Places
import Lowering.Proofs.FirstFailure
import Lowering.Proofs.KnownFields
