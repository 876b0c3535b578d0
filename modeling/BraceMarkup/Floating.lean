import BraceMarkup.Text

/-!
Numbers in binary floating point: 53 significant bits and an exponent of at least -1074. Every
finite number has one form, in which the significand has all 53 bits unless the exponent is the
least one.
-/

namespace BraceMarkup

inductive Floating
  | finite (negative : Bool) (significand : Nat) (exponent : Int)
  | infinite (negative : Bool)
  | undefined
deriving DecidableEq, Repr, Inhabited

namespace Floating

def twoTo (k : Int) : Nat :=
  Nat.pow 2 k.toNat

def tenTo (k : Int) : Nat :=
  Nat.pow 10 k.toNat

def leastExponent : Int := -1074

def greatestExponent : Int := 971

def significandBound : Nat := twoTo 53

def nearest (n d : Nat) : Nat :=
  let quotient := n / d
  let remainder := n % d
  if 2 * remainder < d then quotient
  else if d < 2 * remainder then quotient + 1
  else quotient + quotient % 2

def exponentOf (n d : Nat) : Int :=
  let guess : Int := (n.log2 : Int) - d.log2 - 52
  let fits := d * twoTo (guess + 52) ≤ n * twoTo (-(guess + 52))
  max leastExponent (if fits then guess else guess - 1)

def ofRatio (negative : Bool) (n d : Nat) : Floating :=
  let exponent := exponentOf n d
  let rounded := nearest (n * twoTo (-exponent)) (d * twoTo exponent)
  let (significand, exponent) :=
    if rounded = significandBound then (twoTo 52, exponent + 1) else (rounded, exponent)
  if greatestExponent < exponent then .infinite negative
  else .finite negative significand exponent

def zero (negative : Bool) : Floating :=
  .finite negative 0 leastExponent

def ofDecimal (negative : Bool) (digits : Nat) (power : Int) : Floating :=
  let size := (Text.ofInt digits).length + power
  if digits = 0 ∨ size < -330 then zero negative
  else if 310 < size then .infinite negative
  else ofRatio negative (digits * tenTo power) (tenTo (-power))

def isNegative : Floating → Bool
  | .finite negative significand _ => negative && significand != 0
  | .infinite negative => negative
  | .undefined => false

def signed (negative : Bool) (n : Nat) : Int :=
  if negative then -n else n

def whole? : Floating → Option Int
  | .finite negative significand exponent =>
    let scale := twoTo (-exponent)
    if significand % scale = 0 then
      some (signed negative (significand / scale * twoTo exponent))
    else none
  | .infinite _ | .undefined => none

end Floating

end BraceMarkup
