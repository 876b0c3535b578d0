import BraceMarkup.Text

namespace BraceMarkup.Text

def lines (s : Text) : List Text :=
  s.splitOn '\n'

def unlines (lines : List Text) : Text :=
  List.intercalate ['\n'] lines

def dropEnd (p : Char → Bool) (s : Text) : Text :=
  (s.reverse.dropWhile p).reverse

def isLineBreak (c : Char) : Bool :=
  c ∈ ['\n', '\r', '\x0b', '\x0c', '\x1c', '\x1d', '\x1e', '\u0085', '\u2028', '\u2029']

def breakLines : Text → List Text
  | [] => []
  | '\r' :: '\n' :: cs => [] :: breakLines cs
  | c :: cs =>
    if isLineBreak c then [] :: breakLines cs
    else match breakLines cs with
      | [] => [[c]]
      | l :: ls => (c :: l) :: ls

end BraceMarkup.Text
