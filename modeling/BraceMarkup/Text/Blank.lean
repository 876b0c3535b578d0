import BraceMarkup.Text.Lines

namespace BraceMarkup.Text

def isBlank (c : Char) : Bool :=
  let n := c.toNat
  (0x09 ≤ n && n ≤ 0x0d) || (0x1c ≤ n && n ≤ 0x20) || n = 0x85 || n = 0xa0 || n = 0x1680 ||
    (0x2000 ≤ n && n ≤ 0x200a) || n = 0x2028 || n = 0x2029 || n = 0x202f || n = 0x205f || n = 0x3000

def isBlankText (s : Text) : Bool :=
  s.all isBlank

def trimEnd (s : Text) : Text :=
  dropEnd isBlank s

def trim (s : Text) : Text :=
  trimEnd (s.dropWhile isBlank)

end BraceMarkup.Text
