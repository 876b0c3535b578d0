import BraceMarkup.Value

namespace BraceMarkup

namespace Settings

def insertName (name : Text) : List Text → List Text
  | [] => [name]
  | other :: others =>
    if name = other then other :: others
    else if name < other then name :: other :: others
    else other :: insertName name others

def nameSet (names : List Text) : List Text :=
  names.foldr insertName []

end Settings

structure Settings where
  indentWidth : Value := .integer 4
  voidElements : List Text := Settings.nameSet ["meta".toList, "link".toList]
deriving DecidableEq

namespace Settings

inductive Refusal
  | notNames (v : Value)
  | notName (v : Value)
  | notNumber (v : Value)
  | negativeWidth (v : Value)

def Refusal.isType : Refusal → Bool
  | .negativeWidth _ => false
  | _ => true

def Refusal.message : Refusal → Text
  | .notNames v => '\'' :: v.typeName ++ "' object is not iterable".toList
  | .notName v => "unhashable type: '".toList ++ v.typeName ++ ['\'']
  | .notNumber v =>
    "'<' not supported between instances of '".toList ++ v.typeName ++ "' and 'int'".toList
  | .negativeWidth v => "indent_width must be >= 0, got ".toList ++ v.display

def entryName : Value → Except Refusal (Option Text)
  | .text s => .ok (some s)
  | .sequence items => .error (.notName (.sequence items))
  | .mapping entries => .error (.notName (.mapping entries))
  | .null | .truth _ | .integer _ | .floating _ => .ok none

def namesOf : Value → Except Refusal (List Text)
  | .text s => .ok (s.map ([·]))
  | .mapping entries => .ok (entries.map Prod.fst)
  | .sequence items => return (← items.mapM entryName).filterMap id
  | v => .error (.notNames v)

def widthOf : Value → Except Refusal Value
  | .integer n => if n < 0 then .error (.negativeWidth (.integer n)) else .ok (.integer n)
  | .truth b => .ok (.truth b)
  | .floating x =>
    if x.isNegative then .error (.negativeWidth (.floating x)) else .ok (.floating x)
  | v => .error (.notNumber v)

structure Draft where
  indentWidth : Option Value := none
  voidElements : Option Value := none

def ofDraft (d : Draft) : Except Refusal Settings := do
  let standard : Settings := {}
  let voidElements ← match d.voidElements with
    | none => pure standard.voidElements
    | some v => nameSet <$> namesOf v
  let indentWidth ← match d.indentWidth with
    | none => pure standard.indentWidth
    | some v => widthOf v
  return { indentWidth, voidElements }

def override (s : Settings) (width : Option Value) (names : Option (List Text)) : Settings where
  indentWidth := width.getD s.indentWidth
  voidElements := (names.map nameSet).getD s.voidElements

def isStandard (s : Settings) : Bool :=
  let standard : Settings := {}
  s.indentWidth.same standard.indentWidth && s.voidElements = standard.voidElements

inductive WidthFault
  | notWhole (v : Value)
  | oversize (why : Oversize)

def WidthFault.message : WidthFault → Text
  | .notWhole v => "can't multiply sequence by non-int of type '".toList ++ v.typeName ++ ['\'']
  | .oversize why => why.message

def spaces : Value → Except WidthFault Nat
  | .integer n => (Text.repetitions n).mapError .oversize
  | .truth b => .ok b.toNat
  | v => .error (.notWhole v)

end Settings

end BraceMarkup
