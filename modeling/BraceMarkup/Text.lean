/-!
Text is a list of characters. Indices and slices take whole numbers: a negative one counts back
from the end of the text. An index or a count of repetitions has to fit into a machine word.
-/

namespace BraceMarkup

abbrev Text := List Char

def fitsWord (n : Int) : Bool :=
  -9223372036854775808 ≤ n && n ≤ 9223372036854775807

def wordMessage : Text :=
  "cannot fit 'int' into an index-sized integer".toList

inductive OutOfRange
  | text
  | levels
  | word
deriving DecidableEq, Repr

def OutOfRange.message : OutOfRange → Text
  | .text => "string index out of range".toList
  | .levels => "list index out of range".toList
  | .word => wordMessage

inductive Oversize
  | word
deriving DecidableEq, Repr

def Oversize.message : Oversize → Text
  | .word => wordMessage

namespace Text

def index (s : Text) (i : Int) : Int :=
  if i < 0 then i + s.length else i

def charAt (s : Text) (i : Int) : Except OutOfRange Char :=
  let j := s.index i
  if !fitsWord i then .error .word
  else if j < 0 then .error .text
  else match s[j.toNat]? with
    | some c => .ok c
    | none => .error .text

def slice (s : Text) (start stop : Int) : Text :=
  (s.take (s.index stop).toNat).drop (s.index start).toNat

def ofInt (n : Int) : Text :=
  (toString n).toList

def repetitions (n : Int) : Except Oversize Nat :=
  if fitsWord n then .ok n.toNat else .error .word

theorem repetitions_of_fitsWord {n : Int} (h : fitsWord n = true) :
    repetitions n = .ok n.toNat := by
  rw [repetitions, if_pos h]

theorem fitsWord_of_le {m n : Int} (h : 0 ≤ m) (hle : m ≤ n) (hn : fitsWord n = true) :
    fitsWord m = true := by
  simp only [fitsWord, Bool.and_eq_true, decide_eq_true_eq] at hn ⊢
  omega

def alignRight (width : Nat) (s : Text) : Text :=
  List.replicate (width - s.length) ' ' ++ s

end Text

end BraceMarkup
