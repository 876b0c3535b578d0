import BraceMarkup.Files.Path
import BraceMarkup.Text.Quoted

namespace BraceMarkup

inductive Entry
  | file (bytes : List UInt8)
  | directory
deriving DecidableEq, Repr

/-- Entries by the names that lead to them from the root of all files. The working directory and
all that it lies in are there in any case. -/
structure FileTree where
  entries : List (List Text × Entry) := []
  working : List Text := []
deriving DecidableEq, Repr

namespace FileTree

inductive Trouble
  | missing
  | exists
  | notDirectory
  | isDirectory
  | nameTooLong
deriving DecidableEq, Repr

def Trouble.label : Trouble → Text
  | .missing => "[Errno 2] No such file or directory".toList
  | .exists => "[Errno 17] File exists".toList
  | .notDirectory => "[Errno 20] Not a directory".toList
  | .isDirectory => "[Errno 21] Is a directory".toList
  | .nameTooLong => "[Errno 36] File name too long".toList

structure Fault where
  trouble : Trouble
  path : Path
deriving DecidableEq, Repr

def Fault.message (f : Fault) : Text :=
  f.trouble.label ++ ": ".toList ++ Text.quoted f.path.text

def find? (t : FileTree) (location : List Text) : Option Entry :=
  if location <+: t.working then some .directory else t.entries.lookup location

def put (t : FileTree) (location : List Text) (entry : Entry) : FileTree :=
  { t with entries := (location, entry) :: t.entries.filter (·.1 ≠ location) }

theorem find?_put_self (t : FileTree) {location : List Text} (entry : Entry)
    (h : ¬ location <+: t.working) : (t.put location entry).find? location = some entry := by
  simp [find?, put, h]

theorem lookup_filter_ne {location other : List Text} (h : other ≠ location) :
    ∀ entries : List (List Text × Entry),
      (entries.filter (·.1 ≠ location)).lookup other = entries.lookup other
  | [] => rfl
  | (place, _) :: entries => by
    have ih := lookup_filter_ne h entries
    simp only [ne_eq, decide_not] at ih
    by_cases hp : place = location
    · simp [hp, List.lookup_cons, beq_eq_false_iff_ne.2 h, ih]
    · simp [hp, List.lookup_cons, ih]

theorem find?_put_of_ne (t : FileTree) {location other : List Text} (entry : Entry)
    (h : other ≠ location) : (t.put location entry).find? other = t.find? other := by
  simp only [find?, put, List.lookup_cons, beq_eq_false_iff_ne.2 h, lookup_filter_ne h]

def nameLimit : Nat := 255

def pathLimit : Nat := 4095

def locateFrom (t : FileTree) (here : List Text) : List Text → Except Trouble (List Text)
  | [] => .ok here
  | part :: parts =>
    match t.find? here with
    | none => .error .missing
    | some (.file _) => .error .notDirectory
    | some .directory =>
      if nameLimit < Path.byteCount part then .error .nameTooLong
      else t.locateFrom (Path.follow here part) parts

def locate (t : FileTree) (p : Path) : Except Trouble (List Text) :=
  if pathLimit < Path.byteCount p.text then .error .nameTooLong
  else t.locateFrom (p.anchor.start t.working) p.parts

def entry? (t : FileTree) (p : Path) : Option Entry :=
  match t.locate p with
  | .ok location => t.find? location
  | .error _ => none

def askable (t : FileTree) (p : Path) : Except Fault Unit :=
  match t.locate p with
  | .error .nameTooLong => .error ⟨.nameTooLong, p⟩
  | _ => .ok ()

def has (t : FileTree) (p : Path) : Bool :=
  (t.entry? p).isSome

def isDirectory (t : FileTree) (p : Path) : Bool :=
  t.entry? p = some .directory

def isFile (t : FileTree) (p : Path) : Bool :=
  match t.entry? p with
  | some (.file _) => true
  | _ => false

def read (t : FileTree) (p : Path) : Except Fault (List UInt8) :=
  match t.locate p with
  | .error trouble => .error ⟨trouble, p⟩
  | .ok location =>
    match t.find? location with
    | none => .error ⟨.missing, p⟩
    | some .directory => .error ⟨.isDirectory, p⟩
    | some (.file bytes) => .ok bytes

abbrev Change := EStateM Fault FileTree

def write (p : Path) (bytes : List UInt8) : Change Unit := fun t =>
  match t.locate p with
  | .error trouble => .error ⟨trouble, p⟩ t
  | .ok location =>
    match t.find? location with
    | some .directory => .error ⟨.isDirectory, p⟩ t
    | none | some (.file _) => .ok () (t.put location (.file bytes))

def makeDirectory (p : Path) : Change Unit := fun t =>
  match t.locate p with
  | .error trouble => .error ⟨trouble, p⟩ t
  | .ok location =>
    match t.find? location with
    | some _ => .error ⟨.exists, p⟩ t
    | none => .ok () (t.put location .directory)

def ensureDirectory (p : Path) : Change Unit := fun t =>
  match makeDirectory p t with
  | .ok () t => .ok () t
  | .error fault t =>
    if fault.trouble ≠ .missing ∧ t.isDirectory p then .ok () t else .error fault t

/-- Makes the directory that the reversed names `back` lead to, and those above it. These are
looked at only when something is missing. -/
def ensureBack (anchor : Anchor) : List Text → Change Unit
  | [] => ensureDirectory { parts := [], anchor }
  | part :: back => fun t =>
    match ensureDirectory { parts := (part :: back).reverse, anchor } t with
    | .ok () t => .ok () t
    | .error fault t =>
      if fault.trouble = .missing then
        (do ensureBack anchor back; ensureDirectory { parts := (part :: back).reverse, anchor }) t
      else .error fault t

def ensureDirectories (p : Path) : Change Unit :=
  ensureBack p.anchor p.parts.reverse

def listing (t : FileTree) : List (List Text × Entry) :=
  (List.range (t.working.length + 1)).map (fun n => (t.working.take n, .directory)) ++
    t.entries.filter (¬ ·.1 <+: t.working)

def names (t : FileTree) (location : List Text) : List Text :=
  t.listing.filterMap fun (place, _) =>
    if place.dropLast = location then place.getLast? else none

def directoriesBelow (t : FileTree) (location : List Text) : List (List Text) :=
  [] :: t.listing.filterMap fun (place, entry) =>
    if entry = .directory ∧ location <+: place ∧ place ≠ location then
      some (place.drop location.length)
    else none

def changedSince (t earlier : FileTree) : List (List Text × List UInt8) :=
  t.entries.filterMap fun (place, entry) =>
    match entry with
    | .file bytes => if earlier.find? place = some entry then none else some (place, bytes)
    | .directory => none

def directories (t : FileTree) : List (List Text) :=
  t.entries.filterMap fun (place, entry) => if entry = .directory then some place else none

end FileTree

end BraceMarkup
