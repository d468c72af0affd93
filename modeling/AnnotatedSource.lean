import AnnotatedSource.Annotated
import AnnotatedSource.Command
import AnnotatedSource.Command.Invocation
import AnnotatedSource.Directory
import AnnotatedSource.Expectation
import AnnotatedSource.Forest
import AnnotatedSource.Json.Reader
import AnnotatedSource.Json.Writer
import AnnotatedSource.Lexer
import AnnotatedSource.Listing
import AnnotatedSource.Main
import AnnotatedSource.Number
import AnnotatedSource.Offsets
import AnnotatedSource.Proofs.Acceptance
import AnnotatedSource.Proofs.Assignments
import AnnotatedSource.Proofs.Canonical
import AnnotatedSource.Proofs.CodeUnits
import AnnotatedSource.Proofs.Collection
import AnnotatedSource.Proofs.Covering
import AnnotatedSource.Proofs.Crossing
import AnnotatedSource.Proofs.Cutting
import AnnotatedSource.Proofs.Elision
import AnnotatedSource.Proofs.Escaping
import AnnotatedSource.Proofs.Expectations
import AnnotatedSource.Proofs.ExportFields
import AnnotatedSource.Proofs.Hover
import AnnotatedSource.Proofs.ImportFields
import AnnotatedSource.Proofs.Insertion
import AnnotatedSource.Proofs.InsertionFrame
import AnnotatedSource.Proofs.InsertionOrder
import AnnotatedSource.Proofs.JsonTexts
import AnnotatedSource.Proofs.JsonWriting
import AnnotatedSource.Proofs.Layering
import AnnotatedSource.Proofs.LinePositions
import AnnotatedSource.Proofs.Literals
import AnnotatedSource.Proofs.Location
import AnnotatedSource.Proofs.MarkupReading
import AnnotatedSource.Proofs.Nesting
import AnnotatedSource.Proofs.Numerals
import AnnotatedSource.Proofs.OutlineLines
import AnnotatedSource.Proofs.Outlines
import AnnotatedSource.Proofs.Paths
import AnnotatedSource.Proofs.Placement
import AnnotatedSource.Proofs.Rebuilding
import AnnotatedSource.Proofs.RecordingAcceptance
import AnnotatedSource.Proofs.RecordingTexts
import AnnotatedSource.Proofs.Registrations
import AnnotatedSource.Proofs.Regrouping
import AnnotatedSource.Proofs.Releases
import AnnotatedSource.Proofs.Rendering
import AnnotatedSource.Proofs.ReportReading
import AnnotatedSource.Proofs.SiblingOrder
import AnnotatedSource.Proofs.Slots
import AnnotatedSource.Proofs.Spans
import AnnotatedSource.Proofs.UnitAgreement
import AnnotatedSource.Recording
import AnnotatedSource.RecordingFile
import AnnotatedSource.Release
import AnnotatedSource.Render
import AnnotatedSource.Settings
import AnnotatedSource.Sorting
import AnnotatedSource.Text.Decoding
import AnnotatedSource.Text.Quoting
import AnnotatedSource.Toml.Document
import AnnotatedSource.Toml.Reader
import AnnotatedSource.Value
import AnnotatedSource.WellFormed
import AnnotatedSource.Yaml.Cursor
import AnnotatedSource.Yaml.Document
import AnnotatedSource.Yaml.Reader
import AnnotatedSource.Yaml.Scalar
import AnnotatedSource.Yaml.Token
