import MakerForms.Derive.Digest
import MakerForms.Node.Construct
import MakerForms.Node.Outline
import MakerForms.Proofs.Node.ErrorPath
import MakerForms.Proofs.Node.TextRoundTrip
import MakerForms.Proofs.Sexpr.Spacing
import MakerForms.Proofs.Sexpr.LiteralFold
import MakerForms.Proofs.Sexpr.FormSpans
import MakerForms.Proofs.Sexpr.FirstEvent
import MakerForms.Proofs.Sexpr.AtEnd
import MakerForms.Proofs.Node.FamilyOutcome
import MakerForms.Proofs.Node.Registry
import MakerForms.Proofs.Node.Bounds
import MakerForms.Proofs.Node.NormalForm
import MakerForms.Proofs.Node.CheckedNodes
import MakerForms.Proofs.Derive.Agreement
import MakerForms.Proofs.Derive.KindCodecs
import MakerForms.Proofs.Derive.RecordOutcome
import MakerForms.Proofs.Sexpr.Parser
import MakerForms.Proofs.Sexpr.LineBreaks
import MakerForms.Proofs.Sexpr.Widening
import MakerForms.Proofs.Node.FormCursor
import MakerForms.Proofs.Node.FieldTypes
import MakerForms.Proofs.Sexpr.WordReading
import MakerForms.Proofs.Sexpr.QuotedText
import MakerForms.Proofs.Sexpr.Concatenation
import MakerForms.Proofs.Sexpr.ReadingEnds
import MakerForms.Proofs.Sexpr.SingleValue
import MakerForms.Proofs.Sexpr.Spelling
import MakerForms.Proofs.Sexpr.EscapeUnits
import MakerForms.Proofs.Sexpr.Printers
import MakerForms.Proofs.Node.Building
import MakerForms.Proofs.Node.Outlines
import MakerForms.Proofs.Node.DistinctOutlines
import MakerForms.Proofs.Derive.Digests
