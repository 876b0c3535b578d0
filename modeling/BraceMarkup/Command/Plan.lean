import BraceMarkup.Command.Options
import BraceMarkup.Files.Tree
import BraceMarkup.Text.Wildcard

/-!
Which files a run works on. A path to a directory stands for all files below it with the right
extension, in order; any other path stands for itself. Each source is paired with its target.
-/

namespace BraceMarkup.Command

structure Job where
  source : Path
  target : Option Path
deriving DecidableEq, Repr

def dotted (extension : Text) : Text :=
  if extension.head? = some '.' then extension else '.' :: extension

inductive Abort
  | pattern
  | path (fault : FileTree.Fault)
  | nullCharacter
  | extensionUnset
  | destinationUnset
deriving DecidableEq, Repr

def Abort.message : Abort → Text
  | .pattern => "Invalid pattern: '**' can only be an entire path component".toList
  | .path fault => fault.message
  | .nullCharacter => "embedded null byte".toList
  | .extensionUnset => "'list' object has no attribute 'startswith'".toList
  | .destinationUnset => "unsupported operand type(s) for /: 'list' and 'PosixPath'".toList

def allLevels : Text := "**".toList

def hasDoubleStar : Text → Bool
  | '*' :: '*' :: _ => true
  | _ :: cs => hasDoubleStar cs
  | [] => false

def patternParts (extension : Text) : Except Abort (List Text) :=
  let pattern := '*' :: extension
  let parts := (Path.ofText pattern).parts ++ if pattern.getLast? = some '/' then [[]] else []
  if parts.any fun part => part ≠ allLevels && hasDoubleStar part then .error .pattern
  else .ok parts

def askable (t : FileTree) (p : Path) : Except Abort Unit :=
  (t.askable p).mapError .path

def select (t : FileTree) : List Text → Path → Except Abort (List Path)
  | [], p => .ok [p]
  | part :: parts, p =>
    let below (names : List Text) : Path := p.join { parts := names }
    if part = [] then .ok [p]
    else if part = allLevels then
      match t.locate p with
      | .ok location => do
        return (← (t.directoriesBelow location).mapM (select t parts <| below ·)).flatten.eraseDups
      | .error _ => .ok []
    else if Text.hasWildcard part then
      match t.locate p with
      | .ok location => do
        let found := (t.names location).filter fun name =>
          Text.matchesPattern part name && (parts.isEmpty || t.isDirectory (below [name]))
        return (← found.mapM (select t parts <| below [·])).flatten
      | .error _ => .ok []
    else do
      askable t (below [part])
      if if parts.isEmpty then t.has (below [part]) else t.isDirectory (below [part]) then
        select t parts (below [part])
      else return []

def sources (t : FileTree) (extension : Text) (p : Path) : Except Abort (List Path) := do
  askable t p
  if t.isDirectory p then
    let found ← select t (allLevels :: (← patternParts extension)) p
    return (found.filter t.isFile).mergeSort (¬ ·.parts > ·.parts)
  else return [p]

def target (root : Path) (destination : Destination) (toStdout : Bool) (source : Path) :
    Except Abort (Option Path) :=
  if toStdout then .ok none
  else match destination with
    | .beside => .ok (some (source.withSuffix ".html".toList))
    | .below dir => .ok (some ((dir.join (source.relativeTo root)).withSuffix ".html".toList))
    | .unset => .error .destinationUnset

def jobsOf (t : FileTree) (extension : Text) (destination : Destination) (toStdout : Bool)
    (p : Path) : Except Abort (List Job) := do
  let root := if t.isDirectory p then p else p.parent
  (← sources t extension p).mapM fun source =>
    return ⟨source, ← target root destination toStdout source⟩

def plan (t : FileTree) (extension : Text) (destination : Destination) (toStdout : Bool)
    (paths : List Path) : Except Abort (List Job) := do
  return (← paths.mapM (jobsOf t extension destination toStdout)).flatten

end BraceMarkup.Command
