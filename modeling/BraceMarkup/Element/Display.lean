import BraceMarkup.Element

namespace BraceMarkup

def Text.tuple : List Text → Text
  | [s] => '(' :: s ++ ",)".toList
  | parts => '(' :: Text.commaList parts ++ [')']

def Span.display (p : Span) : Text :=
  "Position(idx=".toList ++ Text.ofInt p.idx ++ ", length=".toList ++ Text.ofInt p.length ++
    ", start_line=".toList ++ Text.ofInt p.first.line ++
    ", start_col=".toList ++ Text.ofInt p.first.column ++
    ", end_line=".toList ++ Text.ofInt p.last.line ++
    ", end_col=".toList ++ Text.ofInt p.last.column ++ [')']

def Attribute.displayFields (name : Text) (value : Option Text) : Text :=
  "Attribute(name=".toList ++ Text.quoted name ++ ", value=".toList ++
    (value.map Text.quoted).getD "None".toList ++ [')']

def Attribute.display {ℓ : Type} (a : Attribute ℓ) : Text :=
  Attribute.displayFields a.name a.value

def Foreign.display : Foreign → Text
  | .value v => v.display
  | .looseAttribute name => Attribute.displayFields name none

namespace Element

variable {ℓ : Type}

mutual

def display : Element ℓ → Text
  | .tag name attributes children _ =>
    "Tag(name=".toList ++ Text.quoted name ++
      ", attributes=".toList ++ Text.tuple (attributes.map Attribute.display) ++
      ", children=".toList ++ Text.tuple (displayParts children) ++ [')']
  | .text value _ => "Text(value=".toList ++ Text.quoted value ++ [')']
  | .raw value _ => "RawHtml(value=".toList ++ Text.quoted value ++ [')']
  | .foreign thing => thing.display

def displayParts : List (Element ℓ) → List Text
  | [] => []
  | e :: es => display e :: displayParts es

end

def displayAll (elements : List (Element ℓ)) : Text :=
  Text.tuple (displayParts elements)

end Element

end BraceMarkup
