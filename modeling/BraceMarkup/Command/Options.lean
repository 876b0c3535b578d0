import BraceMarkup.Files.Path
import BraceMarkup.Text.Digit
import BraceMarkup.Text.Quoted

/-!
The arguments of the command. Switches may stand anywhere and long ones may be cut short as long as
only one fits; all paths stand together, and what follows `--` is never a switch. Every argument is
sorted out before the first one takes effect.
-/

namespace BraceMarkup.Command

inductive Switch
  | help
  | outDir
  | extension
  | stdout
  | verbose
  | quiet
  | version
deriving DecidableEq, Repr

namespace Switch

def spellings : List (Text × Switch) :=
  [("-h".toList, .help), ("--help".toList, .help), ("-o".toList, .outDir),
    ("--out-dir".toList, .outDir), ("--ext".toList, .extension), ("--stdout".toList, .stdout),
    ("-v".toList, .verbose), ("--verbose".toList, .verbose), ("-q".toList, .quiet),
    ("--quiet".toList, .quiet), ("--version".toList, .version)]

def ofSpelling? (s : Text) : Option Switch :=
  spellings.lookup s

def label : Switch → Text
  | .help => "-h/--help".toList
  | .outDir => "-o/--out-dir".toList
  | .extension => "--ext".toList
  | .stdout => "--stdout".toList
  | .verbose => "-v/--verbose".toList
  | .quiet => "-q/--quiet".toList
  | .version => "--version".toList

def takesValue (s : Switch) : Bool :=
  s = .outDir || s = .extension

end Switch

inductive UsageFault
  | pathsMissing
  | unrecognized (arguments : List Text)
  | valueMissing (switch : Switch)
  | valueIgnored (switch : Switch) (value : Text)
  | ambiguous (argument : Text) (spellings : List Text)
deriving DecidableEq, Repr

def UsageFault.message : UsageFault → Text
  | .pathsMissing => "the following arguments are required: paths".toList
  | .unrecognized arguments => "unrecognized arguments: ".toList ++ List.intercalate [' '] arguments
  | .valueMissing switch =>
    "argument ".toList ++ switch.label ++ ": expected one argument".toList
  | .valueIgnored switch value =>
    "argument ".toList ++ switch.label ++ ": ignored explicit argument ".toList ++ Text.quoted value
  | .ambiguous argument spellings =>
    "ambiguous option: ".toList ++ argument ++ " could match ".toList ++
      List.intercalate ", ".toList spellings

inductive Argument
  | plain (s : Text)
  | separator
  | switch (s : Switch) (short : Bool) (value : Option Text)
  | unknown (s : Text)
deriving DecidableEq, Repr

namespace Argument

def isShort (spelling : Text) : Bool :=
  spelling[1]? ≠ some '-'

def splitValue (s : Text) : Text × Option Text :=
  match s.dropWhile (· != '=') with
  | [] => (s, none)
  | _ :: value => (s.takeWhile (· != '='), some value)

def chomped (s : Text) : Text :=
  if s.getLast? = some '\n' then s.dropLast else s

def isNegativeNumber : Text → Bool
  | '-' :: s =>
    let digits := chomped s
    match digits.dropWhile Text.isDecimalDigit with
    | [] => digits ≠ []
    | c :: fraction => c = '.' && fraction ≠ [] && fraction.all Text.isDecimalDigit
  | _ => false

def candidates (s : Text) : List (Text × Argument) :=
  Switch.spellings.filterMap fun (spelling, meant) =>
    if isShort s then
      if spelling = s.take 2 then some (spelling, .switch meant true (some (s.drop 2))) else none
    else if (splitValue s).1.isPrefixOf spelling then
      some (spelling, .switch meant false (splitValue s).2)
    else none

def guess (s : Text) : Except UsageFault Argument :=
  match candidates s with
  | [(_, meant)] => .ok meant
  | [] => .ok (if isNegativeNumber s || ' ' ∈ s then .plain s else .unknown s)
  | several => .error (.ambiguous s (several.map Prod.fst))

def ofText (s : Text) : Except UsageFault Argument :=
  if s.head? ≠ some '-' then .ok (.plain s)
  else match Switch.ofSpelling? s with
    | some meant => .ok (.switch meant (isShort s) none)
    | none =>
      if s.length = 1 then .ok (.plain s)
      else match splitValue s with
        | (spelling, some value) =>
          match Switch.ofSpelling? spelling with
          | some meant => .ok (.switch meant (isShort spelling) (some value))
          | none => guess s
        | (_, none) => guess s

def ofTexts : List Text → Except UsageFault (List Argument)
  | [] => .ok []
  | s :: rest =>
    if s = "--".toList then .ok (.separator :: rest.map .plain)
    else return (← ofText s) :: (← ofTexts rest)

end Argument

structure Cluster where
  flags : List Switch := []
  valued : Option (Switch × Option Text) := none
deriving DecidableEq, Repr

namespace Cluster

def single (s : Switch) (value : Option Text) : Cluster :=
  if s.takesValue then { valued := some (s, value) } else { flags := [s] }

def ofShort (s : Switch) : Text → Except UsageFault Cluster
  | [] => .ok (single s none)
  | c :: cs =>
    if s.takesValue then .ok (single s (some (c :: cs)))
    else match Switch.ofSpelling? ['-', c] with
      | none => .error (.valueIgnored s (c :: cs))
      | some next => do
        let cluster ← ofShort next cs
        return { cluster with flags := s :: cluster.flags }

def ofSwitch (s : Switch) (short : Bool) : Option Text → Except UsageFault Cluster
  | none => .ok (single s none)
  | some value =>
    if s.takesValue then .ok (single s (some value))
    else if short && !value.isEmpty then ofShort s value
    else .error (.valueIgnored s value)

end Cluster

inductive Destination
  | beside
  | below (dir : Path)
  | unset
deriving DecidableEq, Repr

structure Options where
  paths : List Path := []
  destination : Destination := .beside
  extension : Option Text := some ".nhtml".toList
  toStdout : Bool := false
  verbosity : Int := 0
deriving DecidableEq, Repr

inductive Stage
  | before
  | within
  | behind
deriving DecidableEq, Repr

structure Gathered where
  options : Options := {}
  stage : Stage := .before
  extras : List Text := []

inductive Stop
  | help
  | version
  | fault (f : UsageFault)
deriving DecidableEq, Repr

namespace Gathered

def plain (g : Gathered) (s : Text) : Gathered :=
  if g.stage = .behind then { g with extras := g.extras ++ [s] }
  else
    { g with
      stage := .within
      options := { g.options with paths := g.options.paths ++ [.ofText s] } }

def separator (g : Gathered) : Gathered :=
  if g.stage = .behind then { g with extras := g.extras ++ ["--".toList] } else g

def interrupt (g : Gathered) : Gathered :=
  if g.stage = .within then { g with stage := .behind } else g

def unknown (g : Gathered) (s : Text) : Gathered :=
  { g.interrupt with extras := g.extras ++ [s] }

def flag (g : Gathered) : Switch → Except Stop Gathered
  | .help => .error .help
  | .version => .error .version
  | .stdout => .ok { g with options := { g.options with toStdout := true } }
  | .verbose => .ok { g with options := { g.options with verbosity := g.options.verbosity + 1 } }
  | .quiet => .ok { g with options := { g.options with verbosity := g.options.verbosity - 1 } }
  | .outDir | .extension => .ok g

def assign (g : Gathered) (s : Switch) (value : Text) : Gathered :=
  let value := if value = "--".toList then none else some value
  match s with
  | .outDir =>
    let destination := (value.map (Destination.below <| .ofText ·)).getD .unset
    { g with options := { g.options with destination } }
  | .extension => { g with options := { g.options with extension := value } }
  | _ => g

def gather : List Argument → Gathered → Except Stop Gathered
  | [], g => .ok g
  | .plain s :: args, g => gather args (g.plain s)
  | .separator :: args, g => gather args g.separator
  | .unknown s :: args, g => gather args (g.unknown s)
  | .switch s short value :: args, g => do
    let cluster ← (Cluster.ofSwitch s short value).mapError .fault
    match cluster.valued with
    | none => gather args (← cluster.flags.foldlM flag g.interrupt)
    | some (s, some value) => gather args ((← cluster.flags.foldlM flag g.interrupt).assign s value)
    | some (s, none) =>
      match args with
      | .plain value :: args =>
        gather args ((← cluster.flags.foldlM flag g.interrupt).assign s value)
      | _ => .error (.fault (.valueMissing s))

def finish (g : Gathered) : Except Stop Options :=
  if g.stage = .before then .error (.fault .pathsMissing)
  else if g.extras ≠ [] then .error (.fault (.unrecognized g.extras))
  else .ok g.options

end Gathered

def Options.ofArguments (arguments : List Text) : Except Stop Options := do
  let args ← (Argument.ofTexts arguments).mapError .fault
  (← Gathered.gather args {}).finish

def usage : Text :=
  "usage: nhtml [-h] [-o OUT_DIR] [--ext EXT] [--stdout] [-v] [-q] [--version]
             paths [paths ...]
".toList

def help : Text :=
  usage ++ "
Transpile nhtml markup into formatted HTML

positional arguments:
  paths                 Source files or directories

options:
  -h, --help            show this help message and exit
  -o OUT_DIR, --out-dir OUT_DIR
                        Write output under this directory instead of next to
                        each source
  --ext EXT             Source extension searched for in directories (default:
                        .nhtml)
  --stdout              Print HTML instead of writing files
  -v, --verbose         More logging (repeatable)
  -q, --quiet           Less logging (repeatable)
  --version             show program's version number and exit
".toList

def version : Text := "0.1.0".toList

def UsageFault.report (f : UsageFault) : Text :=
  usage ++ "nhtml: error: ".toList ++ f.message ++ ['\n']

end BraceMarkup.Command
