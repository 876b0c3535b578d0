import BraceMarkup.Transpile

namespace BraceMarkup

inductive Level
  | debug
  | info
  | warning
  | error
  | critical
deriving DecidableEq, Repr

namespace Level

def all : List Level :=
  [.debug, .info, .warning, .error, .critical]

def number : Level → Nat
  | .debug => 10
  | .info => 20
  | .warning => 30
  | .error => 40
  | .critical => 50

def label : Level → Text
  | .debug => "DEBUG".toList
  | .info => "INFO".toList
  | .warning => "WARNING".toList
  | .error => "ERROR".toList
  | .critical => "CRITICAL".toList

def ofVerbosity (n : Int) : Level :=
  if 0 < n then .debug
  else if n = 0 then .info
  else if n = -1 then .warning
  else .error

end Level

structure Journal where
  stream : Text
  threshold : Level
deriving DecidableEq, Repr

namespace Journal

def root : Text := "nhtml".toList

def writerName (name : Text) : Text :=
  if name = root ∨ (root ++ ['.']).isPrefixOf name then name else root ++ '.' :: name

def opened (verbosity : Int) (stream : Text) : Journal :=
  ⟨stream, .ofVerbosity verbosity⟩

def shows (j : Journal) (level : Level) : Bool :=
  j.threshold.number ≤ level.number

def record (level : Level) (message : Text) : Text :=
  level.label ++ ": ".toList ++ message ++ ['\n']

def written (j : Journal) (level : Level) (message : Text) : Text :=
  if j.shows level then record level message else []

def parsedMessage {ℓ : Type} (file : Option Text) (elements : List (Element ℓ)) : Text :=
  let name := match file with
    | none | some [] => "<string>".toList
    | some name => name
  "Parsed ".toList ++ name ++ ": ".toList ++ Text.ofInt elements.length ++
    " top-level elements, depth ".toList ++ Text.ofInt (Element.maxDepth elements)

end Journal

def transpileLogged (s : Settings) (journal : Option Journal) (file : Option Text) (source : Text) :
    Except Failure Text × Text :=
  match parse source with
  | .error fault => (.error (.source fault), [])
  | .ok elements =>
    (renderElements s elements,
      (journal.map (·.written .debug (Journal.parsedMessage file elements))).getD [])

end BraceMarkup
