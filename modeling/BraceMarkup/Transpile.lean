import BraceMarkup.Element.Grammar
import BraceMarkup.Html.Render
import BraceMarkup.Settings

namespace BraceMarkup

inductive Failure
  | source (fault : Fault)
  | width (fault : Settings.WidthFault)
  | obstacle (what : Html.Obstacle)

/-- The HTML of elements, unless they lie on more than `limit` levels. -/
def renderWithin {ℓ : Type} (limit : Nat) (s : Settings) (elements : List (Element ℓ)) :
    Except Failure Text := do
  let width ← (Settings.spaces s.indentWidth).mapError .width
  (Html.render limit s.voidElements width elements).mapError .obstacle

def levelLimit : Nat := 498

def renderElements {ℓ : Type} (s : Settings) (elements : List (Element ℓ)) :
    Except Failure Text :=
  renderWithin levelLimit s elements

def transpile (s : Settings) (source : Text) : Except Failure Text := do
  renderElements s (← (parse source).mapError .source)

end BraceMarkup
