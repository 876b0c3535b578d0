import BraceMarkup.Text

namespace BraceMarkup

structure Place where
  line : Int := 1
  column : Int := 1
deriving DecidableEq, Repr

namespace Place

def after (p : Place) (c : Char) : Place :=
  if c = '\n' then ⟨p.line + 1, 1⟩ else ⟨p.line, p.column + 1⟩

def afterText (p : Place) (s : Text) : Place :=
  s.foldl after p

def label (p : Place) : Text :=
  Text.ofInt p.line ++ ':' :: Text.ofInt p.column

end Place

structure Span where
  idx : Int := 0
  length : Int := 1
  first : Place := {}
  last : Place := {}
deriving DecidableEq, Repr

namespace Span

def reaching (idx : Nat) (place : Place) (before : Text) : Span :=
  ⟨idx, before.length + 1, place, place.afterText before⟩

def stop (p : Span) : Int :=
  p.idx + p.length

def isSingle (p : Span) : Bool :=
  p.first = p.last

def text (p : Span) (source : Text) : Text :=
  source.slice p.idx p.stop

def label (p : Span) : Text :=
  p.first.label

def next (p : Span) (source : Text) : Except OutOfRange Place :=
  if p.stop - 1 < source.length then
    return p.last.after (← source.charAt (p.stop - 1))
  else
    return ⟨p.last.line, p.last.column + 1⟩

def extend (p : Span) (source : Text) : Except OutOfRange Span := do
  let place ← p.next source
  return { p with length := p.length + 1, last := place }

def advance (p : Span) (source : Text) : Except OutOfRange Span := do
  let place ← p.next source
  return ⟨p.stop, 1, place, place⟩

end Span

end BraceMarkup
