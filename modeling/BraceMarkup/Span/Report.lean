import BraceMarkup.Span
import BraceMarkup.Text.Lines

/-!
A span shown against its source: a header, a pointer, the lines it covers behind their numbers,
and a closing gutter. The columns of a span made by hand may be too far apart to be shown.
-/

namespace BraceMarkup.Span

def header (p : Span) : Text :=
  if p.isSingle then p.label else p.label ++ " to ".toList ++ p.last.label

def gutterWidth (p : Span) : Nat :=
  (Text.ofInt p.last.line).length

def gutter (p : Span) : Text :=
  List.replicate p.gutterWidth ' ' ++ " |".toList

def markCount (p : Span) : Int :=
  if p.first.line = p.last.line then p.last.column - p.first.column + 1 else 1

def marks (p : Span) : Text :=
  List.replicate p.markCount.toNat 'v'

def pointer (p : Span) : Text :=
  p.gutter ++ List.replicate p.first.column.toNat ' ' ++ p.marks ++ " -- here".toList

def quotedLine (lines : List Text) (n : Int) : Text :=
  if 0 < n then Text.dropEnd (· = '\r') (lines.getD (n - 1).toNat []) else []

def lineNumbers (p : Span) : List Int :=
  (List.range (p.last.line - p.first.line + 1).toNat).map fun (k : Nat) => p.first.line + k

def numbered (p : Span) (lines : List Text) (n : Int) : Text :=
  Text.alignRight p.gutterWidth (Text.ofInt n) ++ " | ".toList ++ quotedLine lines n

def reportLines (p : Span) (source : Text) : List Text :=
  [p.header, p.pointer] ++ p.lineNumbers.map (p.numbered source.lines) ++ [p.gutter]

def report (p : Span) (source : Text) : Text :=
  Text.unlines (p.reportLines source)

def report? (p : Span) (source : Text) : Except Oversize Text := do
  discard (Text.repetitions p.markCount)
  discard (Text.repetitions p.first.column)
  return p.report source

end BraceMarkup.Span
