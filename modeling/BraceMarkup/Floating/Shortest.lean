import BraceMarkup.Floating

namespace BraceMarkup.Floating

structure Decimal where
  digits : Nat
  power : Int
deriving DecidableEq, Repr

def Decimal.compareBinary (d : Decimal) (n : Nat) (exponent : Int) : Ordering :=
  compare (d.digits * tenTo d.power * twoTo (-exponent))
    (n * twoTo exponent * tenTo (-d.power))

/-- Whether `d` is nearer to `significand * 2 ^ exponent` than to its neighbours. The neighbour
below a power of two is half as far away as the one above. Halfway counts for an even
significand. -/
def readsBack (significand : Nat) (exponent : Int) (d : Decimal) : Bool :=
  let narrow := significand = twoTo 52 ∧ leastExponent < exponent
  let below := d.compareBinary (4 * significand - if narrow then 1 else 2) (exponent - 2)
  let above := d.compareBinary (4 * significand + 2) (exponent - 2)
  if significand % 2 = 0 then below != .lt && above != .gt
  else below = .gt && above = .lt

def magnitude (significand : Nat) (exponent : Int) : Int :=
  let scaled : Nat := significand * twoTo exponent * tenTo 350 / twoTo (-exponent)
  (Text.ofInt scaled).length - 350

def candidate? (significand : Nat) (exponent power : Int) : Option Decimal :=
  let digits := significand * twoTo exponent * tenTo (-power) / (twoTo (-exponent) * tenTo power)
  let low : Decimal := ⟨digits, power⟩
  let high : Decimal := ⟨digits + 1, power⟩
  match readsBack significand exponent low, readsBack significand exponent high with
  | false, false => none
  | true, false => some low
  | false, true => some high
  | true, true =>
    match (⟨2 * digits + 1, power⟩ : Decimal).compareBinary (2 * significand) exponent with
    | .gt => some low
    | .lt => some high
    | .eq => some (if digits % 2 = 0 then low else high)

def exact (significand : Nat) (exponent : Int) : Decimal :=
  ⟨significand * twoTo exponent * Nat.pow 5 (-exponent).toNat, min exponent 0⟩

def shortest (significand : Nat) (exponent : Int) : Decimal :=
  let top := magnitude significand exponent
  ((List.range 17).findSome? fun (count : Nat) =>
    candidate? significand exponent (top - (count + 1))).getD
    (exact significand exponent)

def positional (digits : Text) (point : Int) : Text :=
  if point ≤ 0 then "0.".toList ++ List.replicate (-point).toNat '0' ++ digits
  else if digits.length ≤ point then
    digits ++ List.replicate (point.toNat - digits.length) '0' ++ ".0".toList
  else digits.take point.toNat ++ '.' :: digits.drop point.toNat

def scientific (digits : Text) (power : Int) : Text :=
  let size := Text.ofInt power.natAbs
  digits.take 1 ++ (if digits.length ≤ 1 then [] else '.' :: digits.drop 1) ++
    'e' :: (if power < 0 then '-' else '+') :: List.replicate (2 - size.length) '0' ++ size

def Decimal.display (d : Decimal) : Text :=
  let written := Text.ofInt d.digits
  let point := written.length + d.power
  let digits := (written.reverse.dropWhile (· = '0')).reverse
  if -4 < point ∧ point ≤ 16 then positional digits point else scientific digits (point - 1)

def display : Floating → Text
  | .undefined => "nan".toList
  | .infinite negative => if negative then "-inf".toList else "inf".toList
  | .finite negative significand exponent =>
    (if negative then ['-'] else []) ++
      if significand = 0 then "0.0".toList else (shortest significand exponent).display

end BraceMarkup.Floating
