import BraceMarkup.Transpile

/-!
The settings of one thread of work. Settings can be changed for good or for the length of a scope,
and leaving a scope brings back the settings that were active when it was entered. A renderer keeps
the settings it was made with.
-/

namespace BraceMarkup

structure Session where
  active : Settings := {}
  saved : List Settings := []
  renderers : List (Text × Settings) := []

namespace Session

inductive Request
  | current
  | check (draft : Settings.Draft)
  | set (draft : Settings.Draft)
  | reset
  | enter (draft : Settings.Draft)
  | leave
  | abandon
  | transpile (source : Text)
  | render (elements : List (Element Unit))
  | makeRenderer (name : Text) (width names : Option Value)
  | renderWith (renderer : Text) (elements : List (Element Unit))
  | transpileWith (renderer : Text) (source : Text)
  | thread (requests : List Request)
deriving Inhabited

inductive Response
  | settings (s : Settings)
  | html (text : Text)
  | made
  | refused (why : Settings.Refusal)
  | failed (why : Failure)
  | unknownRenderer (name : Text)
  | thread (responses : List Response)

def withDraft (s : Session) (draft : Settings.Draft) (use : Settings → Session) :
    Response × Session :=
  match Settings.ofDraft draft with
  | .ok settings => (.settings (use settings).active, use settings)
  | .error why => (.refused why, s)

def close (s : Session) : Session :=
  match s.saved with
  | [] => s
  | settings :: saved => { s with active := settings, saved }

def keepRenderer (s : Session) (name : Text) (width names : Option Value) :
    Response × Session :=
  match names.mapM Settings.namesOf with
  | .error why => (.refused why, s)
  | .ok names =>
    (.made, { s with renderers := (name, s.active.override width names) :: s.renderers })

def answer (result : Except Failure Text) : Response :=
  match result with
  | .ok text => .html text
  | .error why => .failed why

def answerWith (s : Session) (name : Text) (job : Settings → Except Failure Text) : Response :=
  match s.renderers.lookup name with
  | some settings => answer (job settings)
  | none => .unknownRenderer name

mutual

def step : Request → Session → Response × Session
  | .current, s => (.settings s.active, s)
  | .check draft, s =>
    match Settings.ofDraft draft with
    | .ok settings => (.settings settings, s)
    | .error why => (.refused why, s)
  | .set draft, s => s.withDraft draft ({ s with active := · })
  | .reset, s => (.settings {}, { s with active := {} })
  | .enter draft, s =>
    s.withDraft draft ({ s with active := ·, saved := s.active :: s.saved })
  | .leave, s => (.settings s.close.active, s.close)
  | .abandon, s => (.settings s.close.active, s.close)
  | .transpile source, s => (answer (BraceMarkup.transpile s.active source), s)
  | .render elements, s => (answer (renderElements s.active elements), s)
  | .makeRenderer name width names, s => s.keepRenderer name width names
  | .renderWith name elements, s => (s.answerWith name (renderElements · elements), s)
  | .transpileWith name source, s =>
    (s.answerWith name (BraceMarkup.transpile · source), s)
  | .thread requests, s => (.thread (run requests {}).1, s)

def run : List Request → Session → List Response × Session
  | [], s => ([], s)
  | r :: rs, s =>
    let (response, s) := step r s
    let (responses, s) := run rs s
    (response :: responses, s)

end

end Session

end BraceMarkup
