import BraceMarkup.Element
import BraceMarkup.Html.Buffer

/-!
Elements written as indented HTML: a line for each text, each piece of raw markup and each tag. An
element without children opens and closes on one line, and void elements are not closed.
-/

namespace BraceMarkup.Html

variable {ℓ : Type}

def writeAttribute (b : Buffer) (a : Attribute ℓ) : Buffer :=
  let b := (b.append [' ']).append a.name
  match a.value with
  | none => b
  | some value => (b.append ['=']).append value

def writeOpening (name : Text) (attributes : List (Attribute ℓ)) (b : Buffer) : Buffer :=
  (attributes.foldl writeAttribute ((b.append ['<']).append name)).append ['>']

def writeClosing (name : Text) (b : Buffer) : Buffer :=
  (((b.append "</".toList).append name).append ['>']).newline

inductive Obstacle
  | foreign (thing : Foreign)
  | tooDeep
deriving DecidableEq

def Obstacle.message : Obstacle → Text
  | .foreign thing => "cannot render ".toList ++ thing.typeName
  | .tooDeep => "maximum recursion depth exceeded".toList

section Writing

-- `limit` is the number of levels that lines can be written on: the calls for one more do not return
variable (limit : Nat) (voids : List Text)

def checkLevel (level : Nat) : Except Obstacle Unit :=
  if limit ≤ level then .error .tooDeep else .ok ()

mutual

def write (level : Nat) : Element ℓ → Buffer → Except Obstacle Buffer
  | .text value _, b | .raw value _, b => do
    checkLevel limit level
    return b.line level value
  | .foreign thing, _ => .error (.foreign thing)
  | .tag name attributes children _, b => do
    checkLevel limit level
    let isVoid := name ∈ voids
    let b := writeOpening name attributes (b.indent level)
    let b := if isVoid ∨ !children.isEmpty then b.newline else b
    let b ← writeAll (level + 1) children b
    if isVoid then return b
    return writeClosing name (if children.isEmpty then b else b.indent level)

def writeAll (level : Nat) : List (Element ℓ) → Buffer → Except Obstacle Buffer
  | [], b => .ok b
  | e :: es, b => do writeAll level es (← write level e b)

end

def render (width : Nat) (elements : List (Element ℓ)) : Except Obstacle Text :=
  (writeAll limit voids 0 elements { width }).map Buffer.text

end Writing

end BraceMarkup.Html
