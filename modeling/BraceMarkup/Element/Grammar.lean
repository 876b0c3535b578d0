import BraceMarkup.Element.Block
import BraceMarkup.Token.Feed

/-!
Building elements from tokens.

    document  = element*
    element   = tag | string | raw markup | embedded block
    tag       = name attribute* body
    attribute = name ("=" string)?
    body      = ";" | "{" element* "}" | element ";"?

The productions run on any source of tokens. Elements nest through bodies, and the number of
elements that may be open inside each other is bounded.
-/

namespace BraceMarkup

namespace Grammar

open Feed

variable {σ : Type} [TokenSource σ]

def tagAttribute : Building σ (Attribute Span) := do
  let name ← expect .name "Expected attribute name".toList
  if ← isNext .equal then
    discard take
    let value ← expect .string "Expected string value".toList
    return ⟨name.lexeme, some value.lexeme, name.span⟩
  else
    return ⟨name.lexeme, none, name.span⟩

def tagAttribute? : Building σ (Option (Attribute Span)) := do
  if ← isNext .name then return some (← tagAttribute) else return none

def required (element : Building σ (Option (Element Span))) : Building σ (Element Span) := do
  match ← element with
  | some child => return child
  | none => reject .expectedElement

def child? (element : Building σ (Option (Element Span))) :
    Building σ (Option (Element Span)) := do
  if ← isNext .rightBrace then return none else return some (← required element)

def body (element : Building σ (Option (Element Span))) : Building σ (List (Element Span)) := do
  if ← isNext .semicolon then
    discard take
    return []
  else if ← isNext .leftBrace then
    discard take
    let children ← many (child? element)
    discard take
    return children
  else
    let child ← required element
    if ← isNext .semicolon then discard take
    return [child]

def tag (element : Building σ (Option (Element Span))) : Building σ (Element Span) := do
  let name ← expect .name "Expected element name".toList
  let attributes ← many tagAttribute?
  let children ← body element
  return .tag name.lexeme attributes children name.span

def elementOver (inner : Building σ (Option (Element Span))) :
    Building σ (Option (Element Span)) := do
  match ← peek with
  | none => return none
  | some token =>
    match token.kind with
    | .name => return some (← tag inner)
    | .string =>
      discard take
      return some (.text token.lexeme.tail.dropLast token.span)
    | .html =>
      discard take
      return some (.raw token.lexeme token.span)
    | .script | .style =>
      discard take
      return some (Element.ofBlock token)
    | .equal | .leftBrace | .rightBrace | .semicolon => return none

/-- At most `limit` elements may be open inside each other, this one included. -/
def element : (limit : Nat) → Building σ (Option (Element Span))
  | 0 => reject .nestingTooDeep
  | limit + 1 => elementOver (element limit)

def documentOf (element : Building σ (Option (Element Span))) :
    Building σ (List (Element Span)) := do
  let elements ← many element
  match ← peek with
  | none => return elements
  | some _ => reject .expectedTag

def document (limit : Nat) : Building σ (List (Element Span)) :=
  documentOf (element limit)

end Grammar

def parseWithin (limit : Nat) (source : Text) : Except Fault (List (Element Span)) :=
  Feed.evaluate (Grammar.document limit) (Cursor.ofText source)

def nestingLimit : Nat := 300

def parse (source : Text) : Except Fault (List (Element Span)) :=
  parseWithin nestingLimit source

end BraceMarkup
