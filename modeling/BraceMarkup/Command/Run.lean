import BraceMarkup.Command.Options
import BraceMarkup.Command.Plan
import BraceMarkup.Journal
import BraceMarkup.Text.Utf8

namespace BraceMarkup.Command

inductive Status
  | done
  | failed
  | misused
deriving DecidableEq, Repr

def Status.code : Status → Nat
  | .done => 0
  | .failed => 1
  | .misused => 2

structure Console where
  files : FileTree
  output : Text := []
  log : Text := []

namespace Console

def note (c : Console) (journal : Journal) (level : Level) (message : Text) : Console :=
  { c with log := c.log ++ journal.written level message }

end Console

namespace Job

def sourceAt (job : Job) (working : List Text) : List Text :=
  job.source.direct working

def targetAt (job : Job) (working : List Text) : Option (List Text) :=
  job.target.map (Path.direct working)

def isOverwriting (job : Job) (working : List Text) : Bool :=
  job.targetAt working = some (job.sourceAt working)

def hasNullCharacter (job : Job) : Bool :=
  match job.target with
  | some target => '\x00' ∈ target.text
  | none => false

def sourceText (job : Job) (files : FileTree) : Except Text Text := do
  let bytes ← (files.read job.source).mapError FileTree.Fault.message
  let text ← (Utf8.decode bytes).mapError Utf8.Fault.message
  return text.uniformNewlines

def failureMessage (file source : Text) : Failure → Text
  | .source fault => (fault.notice source (some file)).message
  | .width fault => fault.message
  | .obstacle what => what.message

def html (job : Job) (journal : Journal) (files : FileTree) : Except Text Text × Text :=
  let file := job.source.text
  if job.isOverwriting files.working then
    (.error (file ++ ": output would overwrite the source file".toList), [])
  else match job.sourceText files with
    | .error message => (.error (file ++ ": ".toList ++ message), [])
    | .ok source =>
      let (result, log) := transpileLogged {} (some journal) (some file) source
      (result.mapError (failureMessage file source), log)

def save (target : Path) (text : Text) : FileTree.Change Unit := do
  FileTree.ensureDirectories target.parent
  FileTree.write target (Utf8.encode text)

def deliver (job : Job) (journal : Journal) (text : Text) (c : Console) : Bool × Console :=
  match job.target with
  | none => (true, { c with output := c.output ++ text })
  | some target =>
    match save target text c.files with
    | .ok () files =>
      (true, { c with files }.note journal .info
        (job.source.text ++ " -> ".toList ++ target.text))
    | .error fault files =>
      (false, { c with files }.note journal .error
        (target.text ++ ": ".toList ++ fault.message))

def run (job : Job) (journal : Journal) (c : Console) : Bool × Console :=
  match job.html journal c.files with
  | (.error message, log) => (false, { c with log := c.log ++ log }.note journal .error message)
  | (.ok text, log) => job.deliver journal text { c with log := c.log ++ log }

end Job

def runJobs (journal : Journal) : List Job → Console → Nat × Console
  | [], c => (0, c)
  | job :: jobs, c =>
    let (worked, c) := job.run journal c
    let (failed, c) := runJobs journal jobs c
    (if worked then failed else failed + 1, c)

def runAll (journal : Journal) (jobs : List Job) (c : Console) : Status × Console :=
  match runJobs journal jobs c with
  | (0, c) =>
    (.done, c.note journal .debug
      ("transpiled ".toList ++ Text.ofInt jobs.length ++ " file(s)".toList))
  | (failed, c) =>
    (.failed, c.note journal .error
      (Text.ofInt failed ++ " of ".toList ++ Text.ofInt jobs.length ++ " file(s) failed".toList))

def runOptions (o : Options) (c : Console) : Except Abort (Status × Console) := do
  let journal := Journal.opened o.verbosity "stderr".toList
  o.paths.forM (askable c.files)
  let missing := o.paths.filter (!c.files.has ·)
  if missing ≠ [] then
    return (.misused, missing.foldl (fun c p =>
      c.note journal .error ("no such file or directory: ".toList ++ p.text)) c)
  let extension ← match o.extension with
    | some extension => pure (dotted extension)
    | none => throw .extensionUnset
  let jobs ← plan c.files extension o.destination o.toStdout o.paths
  if jobs = [] then
    return (.done, c.note journal .warning ("no ".toList ++ extension ++ " files found".toList))
  if jobs.any Job.hasNullCharacter then throw .nullCharacter
  return runAll journal jobs c

def run (arguments : List Text) (files : FileTree) : Except Abort (Status × Console) :=
  match Options.ofArguments arguments with
  | .ok options => runOptions options { files }
  | .error .help => .ok (.done, { files, output := help })
  | .error .version => .ok (.done, { files, output := "nhtml ".toList ++ version ++ ['\n'] })
  | .error (.fault f) => .ok (.misused, { files, log := f.report })

end BraceMarkup.Command
