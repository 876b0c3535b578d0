import BraceMarkup.Span.Report
import BraceMarkup.Text.Quoted

namespace BraceMarkup

inductive Fault.Kind
  | invalidCharacter
  | malformedString
  | malformedHtml
  | malformedScript
  | malformedStyle
  | unexpectedToken
  | expectedTag
  | expectedElement
  | nestingTooDeep
deriving DecidableEq, Repr

namespace Fault.Kind

def all : List Kind :=
  [.invalidCharacter, .malformedString, .malformedHtml, .malformedScript, .malformedStyle,
    .unexpectedToken, .expectedTag, .expectedElement, .nestingTooDeep]

def label : Kind → Text
  | .invalidCharacter => "invalid character".toList
  | .malformedString => "malformed string".toList
  | .malformedHtml => "malformed HTML".toList
  | .malformedScript => "malformed JS".toList
  | .malformedStyle => "malformed CSS".toList
  | .unexpectedToken => "unexpected token".toList
  | .expectedTag => "expected tag".toList
  | .expectedElement => "expected element".toList
  | .nestingTooDeep => "nesting too deep".toList

def isLexical : Kind → Bool
  | .invalidCharacter | .malformedString | .malformedHtml | .malformedScript
  | .malformedStyle => true
  | .unexpectedToken | .expectedTag | .expectedElement | .nestingTooDeep => false

end Fault.Kind

inductive Fault.Cause
  | invalidCharacter (character : Char)
  | malformedString
  | malformedHtml
  | malformedScript
  | malformedStyle
  | unexpectedToken (needed : Text)
  | expectedTag
  | expectedElement
  | nestingTooDeep
deriving DecidableEq, Repr

namespace Fault

def invalidDetail (characters : Text) : Text :=
  "Invalid character ".toList ++ Text.quoted characters

def Cause.kind : Cause → Kind
  | .invalidCharacter _ => .invalidCharacter
  | .malformedString => .malformedString
  | .malformedHtml => .malformedHtml
  | .malformedScript => .malformedScript
  | .malformedStyle => .malformedStyle
  | .unexpectedToken _ => .unexpectedToken
  | .expectedTag => .expectedTag
  | .expectedElement => .expectedElement
  | .nestingTooDeep => .nestingTooDeep

def Cause.detail : Cause → Text
  | .invalidCharacter c => invalidDetail [c]
  | .malformedString => "Malformed string".toList
  | .malformedHtml => "Malformed HTML".toList
  | .malformedScript => "Malformed JS".toList
  | .malformedStyle => "Malformed CSS".toList
  | .unexpectedToken needed => needed
  | .expectedTag => "Expected tag".toList
  | .expectedElement => "Expected element".toList
  | .nestingTooDeep => "Nesting too deep".toList

end Fault

structure Fault where
  cause : Fault.Cause
  span : Span
deriving DecidableEq, Repr

structure Notice where
  kind : Fault.Kind
  detail : Text
  span : Span
  source : Option Text
  file : Option Text

namespace Notice

def diagnostic (n : Notice) : Text :=
  match n.source with
  | none => n.span.label
  | some source => n.span.report source

def fileLabel (n : Notice) : Text :=
  match n.file with
  | none | some [] => []
  | some name => name ++ [':']

def message (n : Notice) : Text :=
  n.fileLabel ++ n.detail ++ " at ".toList ++ n.diagnostic

def check (n : Notice) : Except Oversize Unit :=
  match n.source with
  | none => .ok ()
  | some source => discard (n.span.report? source)

end Notice

def Fault.notice (f : Fault) (source : Text) (file : Option Text) : Notice :=
  ⟨f.cause.kind, f.cause.detail, f.span, some source, file⟩

end BraceMarkup
