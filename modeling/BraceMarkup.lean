import BraceMarkup.Span.Report
import BraceMarkup.Text.Quoted
import BraceMarkup.Fault
import BraceMarkup.Token
import BraceMarkup.Token.Reading
import BraceMarkup.Token.Cursor
import BraceMarkup.Element
import BraceMarkup.Token.Feed
import BraceMarkup.Element.Block
import BraceMarkup.Element.Grammar
import BraceMarkup.Html.Buffer
import BraceMarkup.Html.Render
import BraceMarkup.Transpile
import BraceMarkup.Element.Display
import BraceMarkup.Journal
import BraceMarkup.Session
import BraceMarkup.Files.Path
import BraceMarkup.Files.Tree
import BraceMarkup.Text.Utf8
import BraceMarkup.Text.Wildcard
import BraceMarkup.Command.Options
import BraceMarkup.Command.Plan
import BraceMarkup.Command.Run
import BraceMarkup.Main
import BraceMarkup.Floating
import BraceMarkup.Floating.Shortest
import BraceMarkup.Proofs.Token.Lexical
import BraceMarkup.Proofs.Token.Pieces
import BraceMarkup.Proofs.Token.Position
import BraceMarkup.Proofs.Token.Failure
import BraceMarkup.Proofs.Token.Order
import BraceMarkup.Proofs.Element.Productions
import BraceMarkup.Proofs.Element.Derivation
import BraceMarkup.Proofs.Element.Limit
import BraceMarkup.Proofs.Element.Outcome
import BraceMarkup.Proofs.Element.Language
import BraceMarkup.Proofs.Element.Locality
import BraceMarkup.Proofs.Element.Printing
import BraceMarkup.Proofs.Token.Lockstep
import BraceMarkup.Proofs.Element.OnDemand
import BraceMarkup.Proofs.Files.Updates
import BraceMarkup.Proofs.Command.Planning
import BraceMarkup.Proofs.Command.Delivery
import BraceMarkup.Proofs.Token.Insertion
import BraceMarkup.Proofs.Element.Wording
import BraceMarkup.Proofs.Html.Layout
import BraceMarkup.Proofs.Element.Concatenation
import BraceMarkup.Proofs.Element.Provenance
import BraceMarkup.Proofs.Token.Exhaustion
import BraceMarkup.Proofs.Html.Markers
import BraceMarkup.Proofs.Session.Threads
import BraceMarkup.Proofs.Files.Directories
import BraceMarkup.Proofs.Files.Shape
import BraceMarkup.Proofs.Command.Saving
import BraceMarkup.Proofs.Command.Independence
import BraceMarkup.Proofs.Html.Composition
import BraceMarkup.Proofs.Text.Lines
import BraceMarkup.Proofs.Text.Blank
import BraceMarkup.Proofs.Text.Margin
import BraceMarkup.Proofs.Token.Block
import BraceMarkup.Proofs.Element.Content
import BraceMarkup.Proofs.Text.Parts
import BraceMarkup.Proofs.Element.RawLines
import BraceMarkup.Proofs.Text.Returns
import BraceMarkup.Proofs.Element.Blocks
import BraceMarkup.Proofs.Element.LineEndings
import BraceMarkup.Proofs.Html.Indentation
import BraceMarkup.Proofs.Element.Normal
import BraceMarkup.Proofs.Span.Places
import BraceMarkup.Proofs.Span.Report
import BraceMarkup.Proofs.Token.Braces
import BraceMarkup.Proofs.Token.Observed
import BraceMarkup.Proofs.Element.Nesting
import BraceMarkup.Proofs.Token.Lookahead
import BraceMarkup.Proofs.Element.Ambiguity
import BraceMarkup.Proofs.Session.Scopes
