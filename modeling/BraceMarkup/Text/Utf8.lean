import BraceMarkup.Text.Quoted

namespace BraceMarkup.Utf8

inductive Reason
  | badStart
  | badContinuation
  | cutOff
deriving DecidableEq, Repr

structure Fault where
  start : Nat
  stop : Nat
  first : UInt8
  reason : Reason
deriving DecidableEq, Repr

def Reason.label : Reason → Text
  | .badStart => "invalid start byte".toList
  | .badContinuation => "invalid continuation byte".toList
  | .cutOff => "unexpected end of data".toList

def Fault.message (f : Fault) : Text :=
  "'utf-8' codec can't decode byte".toList ++
    (if f.stop = f.start + 1 then
      " 0x".toList ++ Text.hexDigits 2 f.first.toNat ++ " in position ".toList ++ Text.ofInt f.start
    else
      "s in position ".toList ++ Text.ofInt f.start ++ '-' :: Text.ofInt (f.stop - 1)) ++
    ": ".toList ++ f.reason.label

def lead (b : Nat) : Option (Nat × List (Nat × Nat)) :=
  let tail := (0x80, 0xbf)
  if b ≤ 0x7f then some (b, [])
  else if 0xc2 ≤ b ∧ b ≤ 0xdf then some (b - 0xc0, [tail])
  else if b = 0xe0 then some (0, [(0xa0, 0xbf), tail])
  else if b = 0xed then some (0xd, [(0x80, 0x9f), tail])
  else if 0xe1 ≤ b ∧ b ≤ 0xef then some (b - 0xe0, [tail, tail])
  else if b = 0xf0 then some (0, [(0x90, 0xbf), tail, tail])
  else if 0xf1 ≤ b ∧ b ≤ 0xf3 then some (b - 0xf0, [tail, tail, tail])
  else if b = 0xf4 then some (4, [(0x80, 0x8f), tail, tail])
  else none

structure Pending where
  start : Nat
  first : UInt8
  bits : Nat
  next : Nat × Nat
  later : List (Nat × Nat)

def decodeFrom (i : Nat) : Option Pending → List UInt8 → Except Fault Text
  | none, [] => .ok []
  | some p, [] => .error ⟨p.start, i, p.first, .cutOff⟩
  | none, b :: bs =>
    match lead b.toNat with
    | none => .error ⟨i, i + 1, b, .badStart⟩
    | some (bits, []) => return Char.ofNat bits :: (← decodeFrom (i + 1) none bs)
    | some (bits, next :: later) => decodeFrom (i + 1) (some ⟨i, b, bits, next, later⟩) bs
  | some p, b :: bs =>
    if p.next.1 ≤ b.toNat ∧ b.toNat ≤ p.next.2 then
      let bits := p.bits * 64 + (b.toNat - 0x80)
      match p.later with
      | [] => return Char.ofNat bits :: (← decodeFrom (i + 1) none bs)
      | next :: later => decodeFrom (i + 1) (some { p with bits, next, later }) bs
    else .error ⟨p.start, i, p.first, .badContinuation⟩

def decode (bytes : List UInt8) : Except Fault Text :=
  decodeFrom 0 none bytes

def encode (s : Text) : List UInt8 :=
  s.flatMap String.utf8EncodeChar

end BraceMarkup.Utf8

namespace BraceMarkup.Text

def uniformNewlines : Text → Text
  | [] => []
  | '\r' :: '\n' :: cs => '\n' :: uniformNewlines cs
  | c :: cs => (if c = '\r' then '\n' else c) :: uniformNewlines cs

end BraceMarkup.Text
