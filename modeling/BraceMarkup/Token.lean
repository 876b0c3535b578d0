import BraceMarkup.Span
import BraceMarkup.Text.Quoted

namespace BraceMarkup

inductive Token.Kind
  | name
  | string
  | equal
  | leftBrace
  | rightBrace
  | semicolon
  | html
  | script
  | style
deriving DecidableEq, Repr

namespace Token.Kind

def all : List Kind :=
  [.name, .string, .equal, .leftBrace, .rightBrace, .semicolon, .html, .script, .style]

def label : Kind → Text
  | .name => "TEXT".toList
  | .string => "STRING".toList
  | .equal => "EQUAL".toList
  | .leftBrace => "LEFT_BRACE".toList
  | .rightBrace => "RIGHT_BRACE".toList
  | .semicolon => "SEMICOLON".toList
  | .html => "HTML".toList
  | .script => "JS".toList
  | .style => "CSS".toList

def isEmbedded (k : Kind) : Bool :=
  k = .script || k = .style

end Token.Kind

structure Token where
  kind : Token.Kind
  lexeme : Text
  span : Span
deriving DecidableEq, Repr

namespace Token

def openBrace : Char := '\x7b'

def closeBrace : Char := '\x7d'

def interior (t : Token) : Text :=
  ((t.lexeme.dropWhile (· != openBrace)).drop 1).dropLast

inductive BodyFault
  | otherKind (kind : Kind)
  | noBrace
deriving DecidableEq, Repr

def BodyFault.message : BodyFault → Text
  | .otherKind kind => kind.label ++ " token has no embedded body".toList
  | .noBrace => "substring not found".toList

def body (t : Token) : Except BodyFault Text :=
  if !t.kind.isEmbedded then .error (.otherKind t.kind)
  else if openBrace ∈ t.lexeme then .ok t.interior
  else .error .noBrace

def shortLexeme (t : Token) : Text :=
  if t.lexeme.length > 20 then t.lexeme.take 17 ++ "...".toList else t.lexeme

def display (t : Token) : Text :=
  "Token(".toList ++ t.kind.label ++ ", ".toList ++ Text.quoted t.shortLexeme ++ ", ".toList ++
    t.span.label ++ [')']

end Token

end BraceMarkup
