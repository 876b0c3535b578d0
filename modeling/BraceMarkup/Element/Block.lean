import BraceMarkup.Element
import BraceMarkup.Text.Blank
import BraceMarkup.Text.Margin
import BraceMarkup.Token

/-!
Embedded blocks. The body of a script or style block becomes one raw line per line that is not
blank: the first line shares a line with the keyword and is trimmed on its own, the others lose
their common margin.
-/

namespace BraceMarkup.Element

def blockLines (body : Text) : List Text :=
  match body.lines with
  | [] => []
  | first :: others => first.trim :: Text.breakLines (Text.unlines (Text.dropMargins others))

def blockContent (body : Text) : List Text :=
  ((blockLines body).filter (!·.isBlankText)).map Text.trimEnd

def blockName (kind : Token.Kind) : Text :=
  if kind = .style then "style".toList else "script".toList

def ofBlock (token : Token) : Element Span :=
  .tag (blockName token.kind) [] ((blockContent token.interior).map (.raw · token.span)) token.span

end BraceMarkup.Element
