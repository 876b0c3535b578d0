import BraceMarkup.Session
import Mathlib.Logic.Function.Basic
import Mathlib.Data.List.Basic

/-! Threads that work at the same time. They share one process: a variable for the settings, of which
each thread has its own value, the scopes that are open and the renderers that are kept. However
their steps are interleaved, each thread gets the answers of a session of its own. -/

namespace BraceMarkup

def owned {τ α : Type} [DecidableEq τ] (i : τ) (entries : List (τ × α)) : List α :=
  (entries.filter (·.1 = i)).map Prod.snd

section Owned

variable {τ α : Type} [DecidableEq τ] {i j : τ}

@[simp] lemma owned_cons_self (a : α) (entries : List (τ × α)) :
    owned i ((i, a) :: entries) = a :: owned i entries := by
  simp [owned]

@[simp] lemma owned_cons_of_ne (h : j ≠ i) (a : α) (entries : List (τ × α)) :
    owned i ((j, a) :: entries) = owned i entries := by
  simp [owned, h]

lemma head?_owned (i : τ) (entries : List (τ × α)) :
    (owned i entries).head? = (entries.find? (·.1 = i)).map Prod.snd := by
  rw [owned, List.head?_map, List.head?_filter]

lemma owned_eraseP_self (i : τ) (entries : List (τ × α)) :
    owned i (entries.eraseP (·.1 = i)) = (owned i entries).tail := by
  induction entries with
  | nil => rfl
  | cons entry entries ih =>
    obtain ⟨k, a⟩ := entry
    by_cases hk : k = i
    · subst hk
      simp
    · simp [hk, ih]

lemma owned_eraseP_of_ne (h : j ≠ i) (entries : List (τ × α)) :
    owned j (entries.eraseP (·.1 = i)) = owned j entries := by
  induction entries with
  | nil => rfl
  | cons entry entries ih =>
    obtain ⟨k, a⟩ := entry
    by_cases hk : k = i
    · subst hk
      simp [h.symm]
    · by_cases hj : k = j
      · subst hj
        simp [hk, ih]
      · simp [hk, hj, ih]

lemma lookup_owned (i : τ) (name : Text) (entries : List (τ × Text × α)) :
    (owned i entries).lookup name =
      (entries.find? fun entry => entry.1 = i ∧ entry.2.1 = name).map (·.2.2) := by
  induction entries with
  | nil => rfl
  | cons entry entries ih =>
    obtain ⟨k, other, a⟩ := entry
    by_cases hk : k = i
    · subst hk
      by_cases hname : other = name
      · simp [hname]
      · have hbeq : (name == other) = false := beq_eq_false_iff_ne.mpr (Ne.symm hname)
        simp [List.lookup_cons, hname, hbeq, ih]
    · simp [hk, ih]

lemma owned_filter (i : τ) (entries : List (τ × α)) :
    owned i (entries.filter (·.1 = i)) = owned i entries := by
  simp [owned]

end Owned

open Session (Request Response)

/-- What the threads of a process share. Each entry of the tables says which thread made it, and
the latest come first. -/
structure Process (τ : Type) where
  active : τ → Settings := fun _ => {}
  scopes : List (τ × Settings) := []
  renderers : List (τ × Text × Settings) := []

namespace Process

variable {τ : Type} [DecidableEq τ]

def assign (p : Process τ) (i : τ) (settings : Settings) : Process τ :=
  { p with active := Function.update p.active i settings }

def withDraft (p : Process τ) (i : τ) (draft : Settings.Draft) (use : Settings → Process τ) :
    Response × Process τ :=
  match Settings.ofDraft draft with
  | .ok settings => (.settings ((use settings).active i), use settings)
  | .error why => (.refused why, p)

def close (p : Process τ) (i : τ) : Process τ :=
  match p.scopes.find? (·.1 = i) with
  | none => p
  | some (_, settings) => { p.assign i settings with scopes := p.scopes.eraseP (·.1 = i) }

def keepRenderer (p : Process τ) (i : τ) (name : Text) (width names : Option Value) :
    Response × Process τ :=
  match names.mapM Settings.namesOf with
  | .error why => (.refused why, p)
  | .ok names =>
    (.made, { p with renderers := (i, name, (p.active i).override width names) :: p.renderers })

def answerWith (p : Process τ) (i : τ) (name : Text) (job : Settings → Except Failure Text) :
    Response :=
  match p.renderers.find? fun entry => entry.1 = i ∧ entry.2.1 = name with
  | some (_, _, settings) => Session.answer (job settings)
  | none => .unknownRenderer name

def step (i : τ) : Request → Process τ → Response × Process τ
  | .current, p => (.settings (p.active i), p)
  | .check draft, p =>
    match Settings.ofDraft draft with
    | .ok settings => (.settings settings, p)
    | .error why => (.refused why, p)
  | .set draft, p => p.withDraft i draft (p.assign i)
  | .reset, p => (.settings {}, p.assign i {})
  | .enter draft, p => p.withDraft i draft fun settings =>
    { p.assign i settings with scopes := (i, p.active i) :: p.scopes }
  | .leave, p => (.settings ((p.close i).active i), p.close i)
  | .abandon, p => (.settings ((p.close i).active i), p.close i)
  | .transpile source, p => (Session.answer (BraceMarkup.transpile (p.active i) source), p)
  | .render elements, p => (Session.answer (renderElements (p.active i) elements), p)
  | .makeRenderer name width names, p => p.keepRenderer i name width names
  | .renderWith name elements, p => (p.answerWith i name (renderElements · elements), p)
  | .transpileWith name source, p => (p.answerWith i name (BraceMarkup.transpile · source), p)
  | .thread requests, p => (.thread (Session.run requests {}).1, p)

def run : List (τ × Request) → Process τ → List (τ × Response) × Process τ
  | [], p => ([], p)
  | (i, r) :: schedule, p =>
    let (response, p) := step i r p
    let (responses, p) := run schedule p
    ((i, response) :: responses, p)

def session (p : Process τ) (i : τ) : Session where
  active := p.active i
  saved := owned i p.scopes
  renderers := owned i p.renderers

variable {i j : τ}

lemma session_assign_self (p : Process τ) (settings : Settings) :
    (p.assign i settings).session i = { p.session i with active := settings } := by
  simp [session, assign]

lemma session_assign_of_ne (p : Process τ) (settings : Settings) (h : j ≠ i) :
    (p.assign i settings).session j = p.session j := by
  simp [session, assign, h]

lemma session_close_self (p : Process τ) (i : τ) :
    (p.close i).session i = (p.session i).close := by
  have hhead := head?_owned i p.scopes
  have htail := owned_eraseP_self i p.scopes
  cases hfind : p.scopes.find? (·.1 = i) with
  | none =>
    have hnil : owned i p.scopes = [] := by simpa [hfind] using hhead
    simp [close, Session.close, hfind, session, hnil]
  | some scope =>
    rw [hfind] at hhead
    obtain ⟨saved, hsaved⟩ := List.head?_eq_some_iff.mp hhead
    rw [hsaved, List.tail_cons] at htail
    simp [close, Session.close, hfind, session, assign, hsaved, htail]

lemma session_close_of_ne (p : Process τ) (h : j ≠ i) : (p.close i).session j = p.session j := by
  rw [close]
  split
  next => rfl
  next => simp [session, assign, h, owned_eraseP_of_ne h]

lemma answerWith_eq (p : Process τ) (i : τ) (name : Text) (job : Settings → Except Failure Text) :
    p.answerWith i name job = (p.session i).answerWith name job := by
  simp only [answerWith, Session.answerWith, session, lookup_owned]
  cases p.renderers.find? fun entry => entry.1 = i ∧ entry.2.1 = name <;> rfl

lemma step_self (p : Process τ) (i : τ) (r : Request) :
    (step i r p).1 = (Session.step r (p.session i)).1 ∧
      (step i r p).2.session i = (Session.step r (p.session i)).2 := by
  cases r with
  | current | transpile | render | thread => simp [step, Session.step, session]
  | check draft =>
    rw [step, Session.step]
    cases Settings.ofDraft draft <;> exact ⟨rfl, rfl⟩
  | set draft =>
    rw [step, Session.step, withDraft, Session.withDraft]
    cases Settings.ofDraft draft with
    | error why => exact ⟨rfl, rfl⟩
    | ok settings => simp [session, assign]
  | reset => simp [step, Session.step, session_assign_self]
  | enter draft =>
    rw [step, Session.step, withDraft, Session.withDraft]
    cases Settings.ofDraft draft with
    | error why => exact ⟨rfl, rfl⟩
    | ok settings => simp [session, assign]
  | leave | abandon =>
    rw [step, Session.step, ← session_close_self]
    exact ⟨rfl, rfl⟩
  | makeRenderer name width names =>
    rw [step, Session.step, keepRenderer, Session.keepRenderer]
    cases names.mapM Settings.namesOf with
    | error why => exact ⟨rfl, rfl⟩
    | ok names => simp [session]
  | renderWith | transpileWith =>
    rw [step, Session.step, answerWith_eq]
    exact ⟨rfl, rfl⟩

lemma step_of_ne (p : Process τ) (h : j ≠ i) (r : Request) :
    (step i r p).2.session j = p.session j := by
  cases r with
  | current | transpile | render | thread | renderWith | transpileWith => rfl
  | check draft =>
    rw [step]
    cases Settings.ofDraft draft <;> rfl
  | set draft =>
    rw [step, withDraft]
    cases Settings.ofDraft draft with
    | error why => rfl
    | ok settings => exact session_assign_of_ne p settings h
  | reset => exact session_assign_of_ne p {} h
  | enter draft =>
    rw [step, withDraft]
    cases Settings.ofDraft draft with
    | error why => rfl
    | ok settings => simp [session, assign, h, h.symm]
  | leave | abandon => exact session_close_of_ne p h
  | makeRenderer name width names =>
    rw [step, keepRenderer]
    cases names.mapM Settings.namesOf with
    | error why => rfl
    | ok names => simp [session, h.symm]

lemma run_owned (schedule : List (τ × Request)) (p : Process τ) (i : τ) :
    owned i (run schedule p).1 = (Session.run (owned i schedule) (p.session i)).1 ∧
      (run schedule p).2.session i = (Session.run (owned i schedule) (p.session i)).2 := by
  induction schedule generalizing p with
  | nil => exact ⟨rfl, rfl⟩
  | cons entry schedule ih =>
    obtain ⟨k, r⟩ := entry
    obtain ⟨hresponses, hsession⟩ := ih (step k r p).2
    by_cases hk : k = i
    · subst hk
      obtain ⟨hresponse, hstep⟩ := step_self p k r
      rw [hstep] at hresponses hsession
      simp only [run, owned_cons_self, Session.run, hresponse, hresponses, true_and]
      exact hsession
    · rw [step_of_ne p (Ne.symm hk) r] at hresponses hsession
      simp only [run, owned_cons_of_ne hk]
      exact ⟨hresponses, hsession⟩

/-- Whatever the other threads do and when, a thread gets the answers it gets when its own steps run
alone, and these are the answers of a session. -/
theorem answers_isolated (schedule : List (τ × Request)) (i : τ) :
    owned i (run schedule {}).1 = owned i (run (schedule.filter (·.1 = i)) {}).1 ∧
      owned i (run schedule {}).1 = (Session.run (owned i schedule) {}).1 ∧
      (run schedule {}).2.session i = (Session.run (owned i schedule) {}).2 := by
  obtain ⟨hanswers, hsession⟩ := run_owned schedule {} i
  have halone := (run_owned (schedule.filter (·.1 = i)) {} i).1
  rw [owned_filter] at halone
  exact ⟨hanswers.trans halone.symm, hanswers, hsession⟩

end Process

end BraceMarkup
