import BraceMarkup.Session
import Mathlib.Data.List.Basic

namespace BraceMarkup

namespace Floating

def AtLeastZero : Floating → Prop
  | .finite negative significand _ => 0 ≤ signed negative significand
  | .infinite negative => negative = false
  | .undefined => False

lemma atLeastZero_of_isNegative {x : Floating} (h : x.isNegative = false) :
    x.AtLeastZero ∨ x = .undefined := by
  cases x with
  | finite negative significand exponent =>
    left
    cases negative with
    | false => simp [AtLeastZero, signed]
    | true =>
      obtain rfl : significand = 0 := by simpa [isNegative] using h
      simp [AtLeastZero, signed]
  | infinite negative => exact .inl h
  | undefined => exact .inr rfl

end Floating

def Value.AtLeastZero : Value → Prop
  | .integer n => 0 ≤ n
  | .truth _ => True
  | .floating x => x.AtLeastZero
  | .null | .text _ | .sequence _ | .mapping _ => False

namespace Settings

def Spaced (s : Settings) : Prop :=
  s.indentWidth.AtLeastZero ∨ s.indentWidth = .floating .undefined

lemma atLeastZero_of_widthOf {v w : Value} (h : widthOf v = .ok w) :
    w.AtLeastZero ∨ w = .floating .undefined := by
  cases v with
  | integer n =>
    simp only [widthOf] at h
    split_ifs at h with hn
    cases h
    exact .inl (Int.not_lt.mp hn)
  | truth b =>
    cases h
    exact .inl trivial
  | floating x =>
    simp only [widthOf] at h
    split_ifs at h with hx
    cases h
    exact (Floating.atLeastZero_of_isNegative (Bool.eq_false_iff.mpr hx)).imp_right (congrArg _)
  | null | text | sequence | mapping => cases h

lemma ofDraft_eq (d : Draft) : ofDraft d =
    (d.voidElements.elim (.ok ({} : Settings).voidElements) fun v => nameSet <$> namesOf v) >>=
      fun voidElements => (d.indentWidth.elim (.ok (.integer 4)) widthOf) >>=
        fun indentWidth => .ok { indentWidth, voidElements } := by
  obtain ⟨_ | width, _ | names⟩ := d <;> rfl

lemma indentWidth_of_ofDraft {d : Draft} {s : Settings} (h : ofDraft d = .ok s) :
    d.indentWidth.elim (.ok (.integer 4)) widthOf = .ok s.indentWidth := by
  rw [ofDraft_eq] at h
  generalize d.voidElements.elim _ _ = names at h
  generalize d.indentWidth.elim _ _ = width at h ⊢
  cases names with
  | error why => cases h
  | ok names =>
    cases width with
    | error why => cases h
    | ok width =>
      cases h
      rfl

lemma spaced_standard : Spaced {} :=
  .inl (Int.natCast_nonneg 4)

lemma spaced_of_ofDraft {d : Draft} {s : Settings} (h : ofDraft d = .ok s) : s.Spaced := by
  have hwidth := indentWidth_of_ofDraft h
  cases hd : d.indentWidth with
  | none =>
    rw [hd] at hwidth
    left
    rw [← Except.ok.inj hwidth]
    exact Int.natCast_nonneg 4
  | some v =>
    rw [hd] at hwidth
    exact atLeastZero_of_widthOf hwidth

end Settings

namespace Session

def Request.isPlain : Request → Bool
  | .enter _ | .leave | .abandon => false
  | _ => true

def Request.makes (name : Text) : Request → Bool
  | .makeRenderer other _ _ => other = name
  | _ => false

def Response.isFailure : Response → Bool
  | .refused _ | .failed _ | .unknownRenderer _ => true
  | .settings _ | .html _ | .made | .thread _ => false

inductive Moves (s : Session) : Request → Response × Session → Prop
  | stay (r : Request) (response : Response) : Moves s r (response, s)
  | assign {r : Request} {settings : Settings} : r.isPlain = true → settings.Spaced →
      Moves s r (.settings settings, { s with active := settings })
  | enter {draft : Settings.Draft} {settings : Settings} : Settings.ofDraft draft = .ok settings →
      Moves s (.enter draft)
        (.settings settings, { s with active := settings, saved := s.active :: s.saved })
  | close {r : Request} : r.isPlain = false → Moves s r (.settings s.close.active, s.close)
  | keep (name : Text) (width names : Option Value) (settings : Settings) :
      Moves s (.makeRenderer name width names)
        (.made, { s with renderers := (name, settings) :: s.renderers })

section Step

variable {draft : Settings.Draft} {settings : Settings} {why : Settings.Refusal}

lemma step_set_of_ok (h : Settings.ofDraft draft = .ok settings) (s : Session) :
    step (.set draft) s = (.settings settings, { s with active := settings }) := by
  simp [step, withDraft, h]

lemma step_enter_of_ok (h : Settings.ofDraft draft = .ok settings) (s : Session) :
    step (.enter draft) s =
      (.settings settings, { s with active := settings, saved := s.active :: s.saved }) := by
  simp [step, withDraft, h]

lemma step_of_refused (h : Settings.ofDraft draft = .error why) (s : Session) :
    step (.check draft) s = (.refused why, s) ∧ step (.set draft) s = (.refused why, s) ∧
      step (.enter draft) s = (.refused why, s) := by
  simp [step, withDraft, h]

lemma step_makeRenderer_of_ok {names : Option Value} {given : Option (List Text)}
    (h : names.mapM Settings.namesOf = .ok given) (name : Text) (width : Option Value)
    (s : Session) :
    step (.makeRenderer name width names) s =
      (.made, { s with renderers := (name, s.active.override width given) :: s.renderers }) := by
  simp [step, keepRenderer, h]

lemma moves_step (r : Request) (s : Session) : Moves s r (step r s) := by
  cases r with
  | current | transpile | render | renderWith | transpileWith | thread => exact .stay _ _
  | reset => exact .assign rfl Settings.spaced_standard
  | leave | abandon => exact .close rfl
  | check draft =>
    cases h : Settings.ofDraft draft with
    | error why =>
      rw [(step_of_refused h s).1]
      exact .stay _ _
    | ok settings =>
      simp only [step, h]
      exact .stay _ _
  | set draft =>
    cases h : Settings.ofDraft draft with
    | error why =>
      rw [(step_of_refused h s).2.1]
      exact .stay _ _
    | ok settings =>
      rw [step_set_of_ok h]
      exact .assign rfl (Settings.spaced_of_ofDraft h)
  | enter draft =>
    cases h : Settings.ofDraft draft with
    | error why =>
      rw [(step_of_refused h s).2.2]
      exact .stay _ _
    | ok settings =>
      rw [step_enter_of_ok h]
      exact .enter h
  | makeRenderer name width names =>
    cases h : names.mapM Settings.namesOf with
    | error why =>
      simp only [step, keepRenderer, h]
      exact .stay _ _
    | ok given =>
      rw [step_makeRenderer_of_ok h]
      exact .keep name width names _

end Step

namespace Moves

variable {s : Session} {r : Request} {o : Response × Session}

lemma unchanged (h : Moves s r o) (hfailure : o.1.isFailure = true) : o.2 = s := by
  cases h with
  | stay => rfl
  | assign | enter | close | keep => cases hfailure

lemma saved (h : Moves s r o) (hr : r.isPlain = true) : o.2.saved = s.saved := by
  cases h with
  | stay | assign | keep => rfl
  | enter => cases hr
  | close hclose => simp [hr] at hclose

lemma lookup {name : Text} (h : Moves s r o) (hr : r.makes name = false) :
    o.2.renderers.lookup name = s.renderers.lookup name := by
  cases h with
  | stay | assign | enter => rfl
  | close =>
    dsimp only [Session.close]
    split <;> rfl
  | keep other =>
    have hne : name ≠ other := fun heq => by simp [Request.makes, heq] at hr
    simp [List.lookup_cons, beq_eq_false_iff_ne.mpr hne]

lemma spaced (h : Moves s r o) (hs : ∀ settings ∈ s.active :: s.saved, settings.Spaced) :
    ∀ settings ∈ o.2.active :: o.2.saved, settings.Spaced := by
  obtain ⟨hactive, hsaved⟩ := List.forall_mem_cons.mp hs
  cases h with
  | stay | keep => exact hs
  | assign _ hsettings => exact List.forall_mem_cons.mpr ⟨hsettings, hsaved⟩
  | enter hdraft => exact List.forall_mem_cons.mpr ⟨Settings.spaced_of_ofDraft hdraft, hs⟩
  | close =>
    dsimp only [Session.close]
    split
    next => exact hs
    next heq =>
      rw [heq] at hsaved
      exact hsaved

end Moves

def after (requests : List Request) (s : Session) : Session :=
  (run requests s).2

lemma after_cons (r : Request) (rs : List Request) (s : Session) :
    after (r :: rs) s = after rs (step r s).2 := by
  simp [after, run]

lemma after_append (rs rs' : List Request) (s : Session) :
    after (rs ++ rs') s = after rs' (after rs s) := by
  induction rs generalizing s with
  | nil => simp [after, run]
  | cons r rs ih => rw [List.cons_append, after_cons, after_cons, ih]

lemma spaced_after (rs : List Request) {s : Session}
    (hs : ∀ settings ∈ s.active :: s.saved, settings.Spaced) :
    ∀ settings ∈ (after rs s).active :: (after rs s).saved, settings.Spaced := by
  induction rs generalizing s with
  | nil => exact hs
  | cons r rs ih =>
    rw [after_cons]
    exact ih ((moves_step r s).spaced hs)

lemma lookup_after {name : Text} {rs : List Request} (h : ∀ r ∈ rs, r.makes name = false)
    (s : Session) : (after rs s).renderers.lookup name = s.renderers.lookup name := by
  induction rs generalizing s with
  | nil => rfl
  | cons r rs ih =>
    obtain ⟨hr, hrs⟩ := List.forall_mem_cons.mp h
    rw [after_cons, ih hrs, (moves_step r s).lookup hr]

/-- What one thread does. A request that is answered by a failure ends the program, up to the next
handler around it. -/
inductive Program
  | request (r : Request) (plain : r.isPlain = true)
  | fail
  | andThen (p q : Program)
  | handle (p handler : Program)
  | scope (draft : Settings.Draft) (body : Program)

namespace Program

def trace : Program → Session → Bool × List Request
  | request r _, s => ((step r s).1.isFailure, [r])
  | fail, _ => (true, [])
  | andThen p q, s =>
    let (failed, rs) := p.trace s
    if failed then (true, rs) else (q.trace (after rs s)).map id (rs ++ ·)
  | handle p handler, s =>
    let (failed, rs) := p.trace s
    if failed then (handler.trace (after rs s)).map id (rs ++ ·) else (false, rs)
  | scope draft body, s =>
    match step (.enter draft) s with
    | (.refused _, _) => (true, [.enter draft])
    | (_, inner) =>
      let (failed, rs) := body.trace inner
      (failed, .enter draft :: rs ++ [if failed then .abandon else .leave])

def exec (p : Program) (s : Session) : Session :=
  after (p.trace s).2 s

lemma exec_andThen (p q : Program) (s : Session) :
    (andThen p q).exec s = if (p.trace s).1 then p.exec s else q.exec (p.exec s) := by
  simp only [exec, trace]
  split <;> simp [after_append]

lemma exec_handle (p handler : Program) (s : Session) :
    (handle p handler).exec s =
      if (p.trace s).1 then handler.exec (p.exec s) else p.exec s := by
  simp only [exec, trace]
  split <;> simp [after_append]

lemma exec_scope_of_refused {draft : Settings.Draft} {why : Settings.Refusal}
    (h : Settings.ofDraft draft = .error why) (body : Program) (s : Session) :
    (scope draft body).exec s = s := by
  have henter := (step_of_refused h s).2.2
  simp [exec, trace, henter, after, run]

lemma exec_scope_of_ok {draft : Settings.Draft} {settings : Settings}
    (h : Settings.ofDraft draft = .ok settings) (body : Program) (s : Session) :
    (scope draft body).exec s =
      (body.exec { s with active := settings, saved := s.active :: s.saved }).close := by
  have henter := step_enter_of_ok h s
  simp only [exec, trace, henter, List.cons_append, after_cons, after_append]
  -- a failure inside closes the scope as well
  split <;> rfl

lemma scope_restores {body : Program} (hbody : ∀ s, (body.exec s).saved = s.saved)
    (draft : Settings.Draft) (s : Session) :
    ((scope draft body).exec s).active = s.active ∧
      ((scope draft body).exec s).saved = s.saved := by
  cases h : Settings.ofDraft draft with
  | error why =>
    rw [exec_scope_of_refused h]
    exact ⟨rfl, rfl⟩
  | ok settings =>
    have hsaved := hbody { s with active := settings, saved := s.active :: s.saved }
    rw [exec_scope_of_ok h, close, hsaved]
    exact ⟨rfl, rfl⟩

lemma saved_exec (p : Program) (s : Session) : (p.exec s).saved = s.saved := by
  induction p generalizing s with
  | request r plain => exact (moves_step r s).saved plain
  | fail => rfl
  | andThen p q ihp ihq =>
    rw [exec_andThen]
    split
    · exact ihp s
    · rw [ihq, ihp]
  | handle p handler ihp ihh =>
    rw [exec_handle]
    split
    · rw [ihh, ihp]
    · exact ihp s
  | scope draft body ih => exact (scope_restores ih draft s).2

end Program

lemma answerWith_after_keep {names : Option Value} {given : Option (List Text)}
    (h : names.mapM Settings.namesOf = .ok given) {name : Text} {later : List Request}
    (hlater : ∀ r ∈ later, r.makes name = false) (width : Option Value) (s : Session)
    (job : Settings → Except Failure Text) :
    (after (.makeRenderer name width names :: later) s).answerWith name job =
      answer (job (s.active.override width given)) := by
  rw [after_cons, step_makeRenderer_of_ok h, answerWith, lookup_after hlater]
  simp

/-- From wherever a thread has come to: a scope with any program in it, also one that fails at any
depth, ends with the settings from before it, and no program changes what the open scopes bring
back; a draft is put to use, or it is refused and nothing changes, as nothing does at any failure;
the active width is at least zero, if it is a number; and a renderer works with what it was given
and the settings active when it was made, whatever was done since. -/
theorem scopes_restore_renderers_keep (history : List Request) :
    let s := after history {}
    (∀ draft body, ((Program.scope draft body).exec s).active = s.active) ∧
    (∀ p : Program, (p.exec s).saved = s.saved) ∧
    (∀ draft why, Settings.ofDraft draft = .error why →
      step (.check draft) s = (.refused why, s) ∧ step (.set draft) s = (.refused why, s) ∧
        step (.enter draft) s = (.refused why, s)) ∧
    (∀ draft settings, Settings.ofDraft draft = .ok settings →
      step (.set draft) s = (.settings settings, { s with active := settings }) ∧
      step (.enter draft) s =
        (.settings settings, { s with active := settings, saved := s.active :: s.saved })) ∧
    (∀ r, (step r s).1.isFailure = true → (step r s).2 = s) ∧
    s.active.Spaced ∧
    ∀ name width names given later, names.mapM Settings.namesOf = .ok given →
      (∀ r ∈ later, r.makes name = false) →
      let t := after (.makeRenderer name width names :: later) s
      let kept : Settings :=
        { indentWidth := width.getD s.active.indentWidth
          voidElements := (given.map Settings.nameSet).getD s.active.voidElements }
      (∀ elements, (step (.renderWith name elements) t).1 =
        answer (renderElements kept elements)) ∧
      ∀ source, (step (.transpileWith name source) t).1 =
        answer (BraceMarkup.transpile kept source) := by
  intro s
  refine ⟨?_, ?_, ?_, ?_, ?_, ?_, ?_⟩
  · intro draft body
    exact (Program.scope_restores body.saved_exec draft s).1
  · exact fun p => p.saved_exec s
  · exact fun draft why h => step_of_refused h s
  · exact fun draft settings h => ⟨step_set_of_ok h s, step_enter_of_ok h s⟩
  · exact fun r => (moves_step r s).unchanged
  · have hstart : ∀ settings ∈ [({} : Settings)], settings.Spaced :=
      List.forall_mem_singleton.mpr Settings.spaced_standard
    exact spaced_after history hstart _ List.mem_cons_self
  · intro name width names given later hnames hlater t kept
    constructor
    · intro elements
      exact answerWith_after_keep hnames hlater width s (renderElements · elements)
    · intro source
      exact answerWith_after_keep hnames hlater width s (BraceMarkup.transpile · source)

theorem undefined_width_active :
    ¬ (after [.set { indentWidth := some (.floating .undefined) }]
      {}).active.indentWidth.AtLeastZero := by
  have hdraft : Settings.ofDraft { indentWidth := some (.floating .undefined) } =
      .ok { indentWidth := .floating .undefined } := rfl
  rw [after_cons, step_set_of_ok hdraft]
  exact id

end Session

end BraceMarkup
