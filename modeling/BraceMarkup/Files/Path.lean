import BraceMarkup.Text

namespace BraceMarkup

/-- Where a path starts. Two slashes stay two slashes, though they lead where one does. -/
inductive Anchor
  | working
  | root
  | doubleRoot
deriving DecidableEq, Repr

namespace Anchor

def ofText : Text → Anchor
  | '/' :: '/' :: '/' :: _ => .root
  | '/' :: '/' :: _ => .doubleRoot
  | '/' :: _ => .root
  | _ => .working

def text : Anchor → Text
  | .working => []
  | .root => ['/']
  | .doubleRoot => ['/', '/']

def start (working : List Text) : Anchor → List Text
  | .working => working
  | .root | .doubleRoot => []

end Anchor

structure Path where
  parts : List Text
  anchor : Anchor := .working
deriving DecidableEq, Repr

namespace Path

def up : Text := ['.', '.']

def ofText (s : Text) : Path where
  parts := (s.splitOn '/').filter fun part => part ≠ [] ∧ part ≠ ['.']
  anchor := .ofText s

def text (p : Path) : Text :=
  if p.anchor = .working ∧ p.parts = [] then ['.']
  else p.anchor.text ++ List.intercalate ['/'] p.parts

def byteCount (s : Text) : Nat :=
  s.foldl (fun n c => n + c.utf8Size) 0

def parent (p : Path) : Path :=
  { p with parts := p.parts.dropLast }

def join (p q : Path) : Path :=
  if q.anchor = .working then { p with parts := p.parts ++ q.parts } else q

def relativeTo (p root : Path) : Path where
  parts := p.parts.drop root.parts.length

def stem (name : Text) : Text :=
  let suffix := name.reverse.takeWhile (· != '.')
  let before := (name.reverse.dropWhile (· != '.')).drop 1
  if suffix = [] ∨ before = [] then name else before.reverse

def withSuffix (p : Path) (suffix : Text) : Path :=
  match p.parts.getLast? with
  | none => p
  | some name => { p with parts := p.parts.dropLast ++ [stem name ++ suffix] }

def follow (here : List Text) (part : Text) : List Text :=
  if part = up then here.dropLast else here ++ [part]

/-- Where a path leads, by the names from the root of all files. Two paths that lead to one place
are the same here, however they are spelt. -/
def direct (working : List Text) (p : Path) : List Text :=
  p.parts.foldl follow (p.anchor.start working)

end Path

end BraceMarkup
