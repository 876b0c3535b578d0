import BraceMarkup.Floating.Shortest
import BraceMarkup.Text.Quoted

/-!
Values of no fixed type, as they come in loosely written settings and hand-made trees. Values are
compared by what they stand for: numbers by size, whatever their type, truth values as 1 and 0, and
mappings without regard to order. Each value has a canonical form that says what it stands for.
-/

namespace BraceMarkup

inductive Value
  | null
  | truth (b : Bool)
  | integer (n : Int)
  | floating (x : Floating)
  | text (s : Text)
  | sequence (items : List Value)
  | mapping (entries : List (Text × Value))
deriving Inhabited

namespace Text

def commaList (parts : List Text) : Text :=
  List.intercalate ", ".toList parts

end Text

namespace Value

def typeName : Value → Text
  | .null => "NoneType".toList
  | .truth _ => "bool".toList
  | .integer _ => "int".toList
  | .floating _ => "float".toList
  | .text _ => "str".toList
  | .sequence _ => "list".toList
  | .mapping _ => "dict".toList

mutual

def display : Value → Text
  | .null => "None".toList
  | .truth b => if b then "True".toList else "False".toList
  | .integer n => Text.ofInt n
  | .floating x => x.display
  | .text s => Text.quoted s
  | .sequence items => '[' :: Text.commaList (displayAll items) ++ [']']
  | .mapping entries => '\x7b' :: Text.commaList (displayEntries entries) ++ ['\x7d']

def displayAll : List Value → List Text
  | [] => []
  | v :: vs => display v :: displayAll vs

def displayEntries : List (Text × Value) → List Text
  | [] => []
  | (key, v) :: entries => (Text.quoted key ++ ": ".toList ++ display v) :: displayEntries entries

end

mutual

def eqb : Value → Value → Bool
  | .null, .null => true
  | .truth b, .truth b' => b = b'
  | .integer n, .integer n' => n = n'
  | .floating x, .floating x' => x = x'
  | .text s, .text s' => s = s'
  | .sequence items, .sequence items' => eqbAll items items'
  | .mapping entries, .mapping entries' => eqbEntries entries entries'
  | _, _ => false

def eqbAll : List Value → List Value → Bool
  | [], [] => true
  | v :: vs, v' :: vs' => eqb v v' && eqbAll vs vs'
  | _, _ => false

def eqbEntries : List (Text × Value) → List (Text × Value) → Bool
  | [], [] => true
  | (key, v) :: entries, (key', v') :: entries' =>
    key = key' && eqb v v' && eqbEntries entries entries'
  | _, _ => false

end

mutual

theorem eqb_iff : ∀ v w : Value, eqb v w = true ↔ v = w
  | .null, w => by cases w <;> simp [eqb]
  | .truth _, w => by cases w <;> simp [eqb]
  | .integer _, w => by cases w <;> simp [eqb]
  | .floating _, w => by cases w <;> simp [eqb]
  | .text _, w => by cases w <;> simp [eqb]
  | .sequence items, w => by cases w <;> simp [eqb, eqbAll_iff items]
  | .mapping entries, w => by cases w <;> simp [eqb, eqbEntries_iff entries]

theorem eqbAll_iff : ∀ vs ws : List Value, eqbAll vs ws = true ↔ vs = ws
  | [], ws => by cases ws <;> simp [eqbAll]
  | v :: vs, ws => by cases ws <;> simp [eqbAll, eqb_iff v, eqbAll_iff vs]

theorem eqbEntries_iff : ∀ es fs : List (Text × Value), eqbEntries es fs = true ↔ es = fs
  | [], fs => by cases fs <;> simp [eqbEntries]
  | (key, v) :: es, [] => by simp [eqbEntries]
  | (key, v) :: es, (key', w) :: fs => by
    simp [eqbEntries, eqb_iff v, eqbEntries_iff es, and_assoc]

end

instance : DecidableEq Value :=
  fun v w => decidable_of_iff _ (eqb_iff v w)

def insertEntry (key : Text) (v : Value) : List (Text × Value) → List (Text × Value)
  | [] => [(key, v)]
  | (key', v') :: entries =>
    if key < key' then (key, v) :: (key', v') :: entries
    else (key', v') :: insertEntry key v entries

mutual

def canonical : Value → Value
  | .null => .null
  | .truth b => .integer b.toNat
  | .integer n => .integer n
  | .floating x => (x.whole?.map .integer).getD (.floating x)
  | .text s => .text s
  | .sequence items => .sequence (canonicalAll items)
  | .mapping entries => .mapping (canonicalEntries entries)

def canonicalAll : List Value → List Value
  | [] => []
  | v :: vs => canonical v :: canonicalAll vs

def canonicalEntries : List (Text × Value) → List (Text × Value)
  | [] => []
  | (key, v) :: entries => insertEntry key (canonical v) (canonicalEntries entries)

end

def same (v w : Value) : Bool :=
  v.canonical = w.canonical

end Value

end BraceMarkup
