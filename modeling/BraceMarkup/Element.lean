import BraceMarkup.Span
import BraceMarkup.Value

namespace BraceMarkup

/-- The value of an attribute keeps the quotes it was written with. -/
structure Attribute (ℓ : Type) where
  name : Text
  value : Option Text
  location : ℓ
deriving DecidableEq, Repr

inductive Foreign
  | value (v : Value)
  | looseAttribute (name : Text)
deriving DecidableEq, Inhabited

def Foreign.typeName : Foreign → Text
  | .value v => v.typeName
  | .looseAttribute _ => "Attribute".toList

def Foreign.canonical : Foreign → Foreign
  | .value v => .value v.canonical
  | .looseAttribute name => .looseAttribute name

inductive Element (ℓ : Type)
  | tag (name : Text) (attributes : List (Attribute ℓ)) (children : List (Element ℓ)) (location : ℓ)
  | text (value : Text) (location : ℓ)
  | raw (value : Text) (location : ℓ)
  | foreign (thing : Foreign)
deriving Inhabited

def Attribute.bare {ℓ : Type} (a : Attribute ℓ) : Attribute Unit :=
  ⟨a.name, a.value, ()⟩

namespace Element

variable {ℓ : Type}

mutual

def bare : Element ℓ → Element Unit
  | .tag name attributes children _ =>
    .tag name (attributes.map Attribute.bare) (bareAll children) ()
  | .text value _ => .text value ()
  | .raw value _ => .raw value ()
  | .foreign thing => .foreign thing

def bareAll : List (Element ℓ) → List (Element Unit)
  | [] => []
  | e :: es => bare e :: bareAll es

end

mutual

def eqb [DecidableEq ℓ] : Element ℓ → Element ℓ → Bool
  | .tag name attributes children location, .tag name' attributes' children' location' =>
    name = name' && attributes = attributes' && eqbAll children children' && location = location'
  | .text value location, .text value' location' => value = value' && location = location'
  | .raw value location, .raw value' location' => value = value' && location = location'
  | .foreign thing, .foreign thing' => thing = thing'
  | _, _ => false

def eqbAll [DecidableEq ℓ] : List (Element ℓ) → List (Element ℓ) → Bool
  | [], [] => true
  | e :: es, e' :: es' => eqb e e' && eqbAll es es'
  | _, _ => false

end

mutual

theorem eqb_iff [DecidableEq ℓ] : ∀ e f : Element ℓ, eqb e f = true ↔ e = f
  | .tag _ _ children _, f => by cases f <;> simp [eqb, eqbAll_iff children, and_assoc]
  | .text _ _, f => by cases f <;> simp [eqb]
  | .raw _ _, f => by cases f <;> simp [eqb]
  | .foreign _, f => by cases f <;> simp [eqb]

theorem eqbAll_iff [DecidableEq ℓ] : ∀ es fs : List (Element ℓ), eqbAll es fs = true ↔ es = fs
  | [], fs => by cases fs <;> simp [eqbAll]
  | e :: es, fs => by cases fs <;> simp [eqbAll, eqb_iff e, eqbAll_iff es]

end

instance [DecidableEq ℓ] : DecidableEq (Element ℓ) :=
  fun e f => decidable_of_iff _ (eqb_iff e f)

mutual

def canonical : Element ℓ → Element ℓ
  | .tag name attributes children location =>
    .tag name attributes (canonicalAll children) location
  | .text value location => .text value location
  | .raw value location => .raw value location
  | .foreign thing => .foreign thing.canonical

def canonicalAll : List (Element ℓ) → List (Element ℓ)
  | [] => []
  | e :: es => canonical e :: canonicalAll es

end

def sameAll {κ : Type} (es : List (Element ℓ)) (fs : List (Element κ)) : Bool :=
  canonicalAll (bareAll es) = canonicalAll (bareAll fs)

mutual

def depth : Element ℓ → Nat
  | .tag _ _ children _ => if children.isEmpty then 0 else 1 + maxDepth children
  | .text _ _ | .raw _ _ | .foreign _ => 0

def maxDepth : List (Element ℓ) → Nat
  | [] => 0
  | e :: es => max (depth e) (maxDepth es)

end

end Element

end BraceMarkup
