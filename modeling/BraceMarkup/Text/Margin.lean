import BraceMarkup.Text.Lines

namespace BraceMarkup.Text

def isIndent (c : Char) : Bool :=
  c = ' ' || c = '\t'

def commonStart : Text → Text → Text
  | a :: as, b :: bs => if a = b then a :: commonStart as bs else []
  | _, _ => []

def margin? : List Text → Option Text
  | [] => none
  | line :: lines =>
    if line.all isIndent then margin? lines
    else match margin? lines with
      | none => some (line.takeWhile isIndent)
      | some margin => some (commonStart (line.takeWhile isIndent) margin)

def dropMargin (margin line : Text) : Text :=
  if line.all isIndent then []
  else if margin.isPrefixOf line then line.drop margin.length
  else line

def dropMargins (lines : List Text) : List Text :=
  lines.map (dropMargin ((margin? lines).getD []))

end BraceMarkup.Text
