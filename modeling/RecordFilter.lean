import RecordFilter.Binary64
import RecordFilter.Binary64.Shortest
import RecordFilter.Binary64.Text
import RecordFilter.Check
import RecordFilter.CommandLine
import RecordFilter.Comparison
import RecordFilter.Connective
import RecordFilter.Decimal
import RecordFilter.Document
import RecordFilter.Filter
import RecordFilter.Filter.Outline
import RecordFilter.Filter.Parser
import RecordFilter.Json
import RecordFilter.Json.Printer
import RecordFilter.Json.Reader
import RecordFilter.LooseOrder
import RecordFilter.Main
import RecordFilter.Numeral
import RecordFilter.Predicate
import RecordFilter.Proofs.Binary64.FieldOrder
import RecordFilter.Proofs.Binary64.Integral
import RecordFilter.Proofs.Check.Failures
import RecordFilter.Proofs.Check.Modes
import RecordFilter.Proofs.Check.Rendering
import RecordFilter.Proofs.CommandLine.Arguments
import RecordFilter.Proofs.CommandLine.Runs
import RecordFilter.Proofs.Decimal.Exact
import RecordFilter.Proofs.Decimal.Rounding
import RecordFilter.Proofs.Document.Regular
import RecordFilter.Proofs.Filter.Chain
import RecordFilter.Proofs.Filter.Cursor
import RecordFilter.Proofs.Filter.Defects
import RecordFilter.Proofs.Filter.FirstSplit
import RecordFilter.Proofs.Filter.Leaves
import RecordFilter.Proofs.Filter.Negation
import RecordFilter.Proofs.Filter.Precedence
import RecordFilter.Proofs.Filter.Reading
import RecordFilter.Proofs.Filter.Regrouping
import RecordFilter.Proofs.Filter.RoundTrip
import RecordFilter.Proofs.Filter.Tokens
import RecordFilter.Proofs.Filter.Unmarked
import RecordFilter.Proofs.Filter.Walks
import RecordFilter.Proofs.Json.Containers
import RecordFilter.Proofs.Json.Joined
import RecordFilter.Proofs.Json.Lines
import RecordFilter.Proofs.Json.Regular
import RecordFilter.Proofs.LooseOrder.Basis
import RecordFilter.Proofs.LooseOrder.Plain
import RecordFilter.Proofs.Numeral.Spelling
import RecordFilter.Proofs.Numeral.Value
import RecordFilter.Proofs.Outline.Lines
import RecordFilter.Proofs.Outline.Recovery
import RecordFilter.Proofs.Predicate.Division
import RecordFilter.Proofs.Predicate.Fragment
import RecordFilter.Proofs.Predicate.Legible
import RecordFilter.Proofs.Record.Addressing
import RecordFilter.Proofs.Record.Conversion
import RecordFilter.Proofs.Record.Integers
import RecordFilter.Proofs.Record.NonFinite
import RecordFilter.Proofs.Record.Paths
import RecordFilter.Proofs.Text.Quoted
import RecordFilter.Proofs.Value.RoundTrip
import RecordFilter.Proofs.Wildcard.Placement
import RecordFilter.Record
import RecordFilter.Reference
import RecordFilter.Text
import RecordFilter.Text.Blank
import RecordFilter.Text.Printable
import RecordFilter.Text.Quoted
import RecordFilter.Value
import RecordFilter.Wildcard
