import CallDoc.Text.Basic
import CallDoc.Text.Lines
import CallDoc.Text.WordCharacter
import CallDoc.Text.Printable
import CallDoc.Text.LetterCase
import CallDoc.Text.Quoted
import CallDoc.Type.Hint
import CallDoc.Error
import CallDoc.Type.Spelling
import CallDoc.Type.Reduce
import CallDoc.Decimal.Reading
import CallDoc.Decimal.Shortest
import CallDoc.Value.Synthesis
import CallDoc.Numeral.Marker
import CallDoc.Markup.Inline
import CallDoc.Markup.Parse
import CallDoc.Doc.Declare
import CallDoc.Margin
import CallDoc.Section.Item
import CallDoc.Section.Layout
import CallDoc.Section.SeeAlso
import CallDoc.Section.Reader
import CallDoc.Section.Canonical
import CallDoc.Signature
import CallDoc.Report
import CallDoc.Command.Run
import CallDoc.Main
import CallDoc.Proofs.Results
import CallDoc.Proofs.Value.Conformance
import CallDoc.Proofs.Value.Fallback
import CallDoc.Proofs.Doc.Params
import CallDoc.Proofs.Doc.Scope
import CallDoc.Proofs.Doc.Declared
import CallDoc.Proofs.Markup.Tree
import CallDoc.Proofs.Doc.Headers
import CallDoc.Proofs.Doc.Duplicates
import CallDoc.Proofs.Text.Prose
import CallDoc.Proofs.Text.Lines
import CallDoc.Proofs.Text.LetterCase
import CallDoc.Proofs.Section.Heading
import CallDoc.Proofs.Section.Prose
import CallDoc.Proofs.Section.Items
import CallDoc.Proofs.Section.ItemLine
import CallDoc.Proofs.Section.LoneColon
import CallDoc.Proofs.Markup.Prose
import CallDoc.Proofs.Markup.FieldList
import CallDoc.Proofs.Markup.Document
import CallDoc.Proofs.Margin
import CallDoc.Proofs.Outline.Basic
import CallDoc.Proofs.Outline.Name
import CallDoc.Proofs.Outline.Declared
import CallDoc.Proofs.Outline.FieldList
import CallDoc.Proofs.Section.Layout
import CallDoc.Proofs.Outline.Item
import CallDoc.Proofs.Outline.Draft
import CallDoc.Proofs.Outline.Section
import CallDoc.Proofs.Outline.Agreement
import CallDoc.Proofs.Type.Canonical
import CallDoc.Proofs.Cache.History
import CallDoc.Proofs.Cache.Answers
import CallDoc.Proofs.Text.Nesting
import CallDoc.Proofs.Section.Nesting
import CallDoc.Proofs.Markup.Nesting
import CallDoc.Proofs.Nesting
import CallDoc.Proofs.Markup.Hanging
import CallDoc.Proofs.Markup.Renumber
import CallDoc.Proofs.Numeral.Marker
import CallDoc.Proofs.Markup.Locality
import CallDoc.Proofs.Markup.ItemBody
import CallDoc.Proofs.Numeral.Integer
import CallDoc.Proofs.Type.Word
import CallDoc.Proofs.Type.Spelling
import CallDoc.Proofs.Numeral.Roman
import CallDoc.Proofs.Numeral.Sequence
import CallDoc.Proofs.Numeral.Ordinal
import CallDoc.Proofs.Numeral.Label
import CallDoc.Proofs.Markup.Numbered
import CallDoc.Proofs.Markup.Enumerated
import CallDoc.Proofs.Type.Depth
import CallDoc.Proofs.Type.Order
import CallDoc.Proofs.Markup.Inline
import CallDoc.Proofs.Markup.Shown
import CallDoc.Proofs.Outline.Spacing
import CallDoc.Proofs.Type.Ends
import CallDoc.Proofs.Doc.TypeField
import CallDoc.Proofs.Section.Untouched
import CallDoc.Proofs.Section.Progress
import CallDoc.Proofs.Trailing
import CallDoc.Proofs.Doc.Marks
import CallDoc.Proofs.Text.Unmarked
import CallDoc.Proofs.Section.Unmarked
import CallDoc.Proofs.Markup.Content
import CallDoc.Proofs.Markup.Opening
import CallDoc.Proofs.Markup.Source
import CallDoc.Proofs.Markup.Progress
import CallDoc.Proofs.Markup.Placement
import CallDoc.Proofs.Markup.Unmarked
import CallDoc.Proofs.Doc.Lead
import CallDoc.Proofs.Doc.Unmarked
import CallDoc.Proofs.Markup.Extent
import CallDoc.Proofs.Markup.Breaks
import CallDoc.Proofs.Doc.Spacing
import CallDoc.Proofs.Type.Sameness
import CallDoc.Proofs.Type.Reading
import CallDoc.Proofs.Type.Grammar
import CallDoc.Proofs.Type.Denotation
import CallDoc.Proofs.Type.Alternatives
import CallDoc.Proofs.Doc.Paragraphs
import CallDoc.Proofs.Value.Constructed
import CallDoc.Proofs.Value.Choice
import CallDoc.Proofs.Value.Elementwise
import CallDoc.Proofs.Type.Quoted
import CallDoc.Proofs.Value.Slice
import CallDoc.Proofs.Numeral.ItemText
import CallDoc.Proofs.Markup.ItemNumbers
import CallDoc.Proofs.Markup.Quote
import CallDoc.Proofs.Doc.Verbatim
import CallDoc.Proofs.Doc.Passages
import CallDoc.Proofs.Doc.ItemLabels
import CallDoc.Proofs.Markup.Closing
import CallDoc.Proofs.Markup.Written
import CallDoc.Proofs.Outline.Caption
import CallDoc.Proofs.Outline.Remark
import CallDoc.Proofs.Outline.Listing
import CallDoc.Proofs.Markup.Roles
import CallDoc.Proofs.Command.Reports
import CallDoc.Proofs.Command.Sources
import CallDoc.Proofs.Outline.Notice
