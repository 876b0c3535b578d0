import BraceMarkup.Proofs.Token.Pieces
import BraceMarkup.Token.Feed

namespace BraceMarkup.Feed

abbrev Ending := Except Fault Span

variable {σ α β : Type}

lemma bind_of_ok {x : Building σ α} {g : α → Building σ β} {f f' : Feed σ} {a : α}
    (h : x f = .ok a f') : (x >>= g) f = g a f' := by
  simp only [Bind.bind, EStateM.bind, h]

lemma bind_of_error {x : Building σ α} {g : α → Building σ β} {f f' : Feed σ} {fault : Fault}
    (h : x f = .error fault f') : (x >>= g) f = .error fault f' := by
  simp only [Bind.bind, EStateM.bind, h]

variable [TokenSource σ]

inductive Supplies : σ → List Token → Ending → Prop
  | token {s s' : σ} {t : Token} {ts : List Token} {ending : Ending} :
      TokenSource.next s = (.ok (some t), s') → Supplies s' ts ending → Supplies s (t :: ts) ending
  | finish {s s' : σ} : TokenSource.next s = (.ok none, s') →
      Supplies s [] (.ok (TokenSource.span s'))
  | fail {s s' : σ} {fault : Fault} : TokenSource.next s = (.error fault, s') →
      Supplies s [] (.error fault)

inductive Offers : Feed σ → List Token → Ending → Prop
  | held {f : Feed σ} {t : Token} {ts : List Token} {ending : Ending} : f.slot = some t →
      f.ended = false → Supplies f.source ts ending → Offers f (t :: ts) ending
  | fresh {f : Feed σ} {ts : List Token} {ending : Ending} : f.slot = none → f.ended = false →
      Supplies f.source ts ending → Offers f ts ending
  | spent {f : Feed σ} : f.slot = none → f.ended = true → Offers f [] (.ok (TokenSource.span f.source))

/-- On every feed that offers the tokens the action has the same outcome: a result and the tokens
it leaves, or a fault. -/
def Runs (x : Building σ α) (ts : List Token) (ending : Ending) :
    Except Fault (α × List Token) → Prop
  | .ok (a, rest) => rest.length ≤ ts.length ∧ ∀ f, Offers f ts ending → ts.length < f.bound →
      ∃ g, x f = .ok a g ∧ Offers g rest ending ∧ g.bound = f.bound
  | .error fault => ∀ f, Offers f ts ending → ts.length < f.bound → ∃ g, x f = .error fault g

variable {ts rest : List Token} {ending : Ending} {a : α} {x : Building σ α}

lemma runs_pure (a : α) : Runs (pure a : Building σ α) ts ending (.ok (a, ts)) :=
  ⟨le_rfl, fun f hf _ => ⟨f, rfl, hf, rfl⟩⟩

lemma Runs.bind {g : α → Building σ β} {o : Except Fault (β × List Token)}
    (hx : Runs x ts ending (.ok (a, rest))) (hg : Runs (g a) rest ending o) :
    Runs (x >>= g) ts ending o := by
  obtain ⟨hlen, hx⟩ := hx
  cases o with
  | error fault =>
    intro f hf hb
    obtain ⟨f', hxf, hf', hb'⟩ := hx f hf hb
    obtain ⟨f'', hgf⟩ := hg f' hf' (by omega)
    exact ⟨f'', (bind_of_ok hxf).trans hgf⟩
  | ok r =>
    obtain ⟨hlen', hg⟩ := hg
    refine ⟨hlen'.trans hlen, ?_⟩
    intro f hf hb
    obtain ⟨f', hxf, hf', hb'⟩ := hx f hf hb
    obtain ⟨f'', hgf, hf'', hb''⟩ := hg f' hf' (by omega)
    exact ⟨f'', (bind_of_ok hxf).trans hgf, hf'', hb''.trans hb'⟩

lemma Runs.bind_error {g : α → Building σ β} {fault : Fault}
    (hx : Runs x ts ending (.error fault)) : Runs (x >>= g) ts ending (.error fault) := by
  intro f hf hb
  obtain ⟨f', hxf⟩ := hx f hf hb
  exact ⟨f', bind_of_error hxf⟩

lemma Runs.discard {o : Except Fault (α × List Token)} (hx : Runs x ts ending o) :
    Runs (discard x) ts ending (o.map fun p => ((), p.2)) := by
  cases o with
  | error fault =>
    intro f hf hb
    obtain ⟨f', hxf⟩ := hx f hf hb
    exact ⟨f', by simp [Functor.discard, Functor.mapConst, EStateM.map, hxf]⟩
  | ok r =>
    refine ⟨hx.1, ?_⟩
    intro f hf hb
    obtain ⟨f', hxf, h⟩ := hx.2 f hf hb
    exact ⟨f', by simp [Functor.discard, Functor.mapConst, EStateM.map, hxf], h⟩

def refusal (cause : Fault.Cause) : List Token → Ending → Fault
  | t :: _, _ => ⟨cause, t.span⟩
  | [], .ok span => ⟨cause, span⟩
  | [], .error fault => fault

lemma peek_of_offers {f : Feed σ} {t : Token} (h : Offers f (t :: ts) ending) :
    ∃ g, peek f = .ok (some t) g ∧ g.slot = some t ∧ g.ended = false ∧
      Supplies g.source ts ending ∧ g.bound = f.bound := by
  cases h with
  | held hs he h => exact ⟨f, by simp [peek, hs], hs, he, h, rfl⟩
  | fresh hs he h =>
    cases h with
    | @token _ s' _ _ _ hn h =>
      exact ⟨{ f with source := s', slot := some t }, by simp [peek, hs, he, hn], rfl, he, h, rfl⟩

lemma runs_peek_cons (t : Token) (ts : List Token) :
    Runs (peek : Building σ _) (t :: ts) ending (.ok (some t, t :: ts)) := by
  refine ⟨le_rfl, ?_⟩
  intro f hf _
  obtain ⟨g, hp, hs, he, h, hb⟩ := peek_of_offers hf
  exact ⟨g, hp, .held hs he h, hb⟩

lemma peek_of_offers_end {f : Feed σ} {span : Span} (h : Offers f [] (.ok span)) :
    ∃ g, peek f = .ok none g ∧ g.slot = none ∧ g.ended = true ∧
      TokenSource.span g.source = span ∧ g.bound = f.bound := by
  cases h with
  | fresh hs he h =>
    cases h with
    | @finish _ s' hn =>
      exact ⟨{ f with source := s', ended := true }, by simp [peek, hs, he, hn], hs, rfl, rfl, rfl⟩
  | spent hs he => exact ⟨f, by simp [peek, hs, he], hs, he, rfl, rfl⟩

lemma runs_peek_end (span : Span) :
    Runs (peek : Building σ _) [] (.ok span) (.ok (none, [])) := by
  refine ⟨le_rfl, ?_⟩
  intro f hf _
  obtain ⟨g, hp, hs, he, rfl, hb⟩ := peek_of_offers_end hf
  exact ⟨g, hp, .spent hs he, hb⟩

lemma runs_peek_fault (fault : Fault) :
    Runs (peek : Building σ _) [] (.error fault) (.error fault) := by
  intro f hf _
  cases hf with
  | fresh hs he h =>
    cases h with
    | @fail _ s' _ hn => exact ⟨{ f with source := s' }, by simp [peek, hs, he, hn]⟩

lemma runs_take (t : Token) (ts : List Token) :
    Runs (take : Building σ _) (t :: ts) ending (.ok (some t, ts)) := by
  refine ⟨by simp, ?_⟩
  intro f hf _
  obtain ⟨g, hp, hs, he, h, hb⟩ := peek_of_offers hf
  exact ⟨{ g with slot := none }, (bind_of_ok hp).trans rfl, .fresh rfl he h, hb⟩

lemma runs_isNext_cons (kind : Token.Kind) (t : Token) (ts : List Token) :
    Runs (isNext kind : Building σ _) (t :: ts) ending (.ok (decide (t.kind = kind), t :: ts)) :=
  (runs_peek_cons t ts).bind (runs_pure _)

lemma runs_isNext_fault (kind : Token.Kind) (fault : Fault) :
    Runs (isNext kind : Building σ _) [] (.error fault) (.error fault) :=
  (runs_peek_fault fault).bind_error

def Ahead (p : Token.Kind → Prop) : List Token → Ending → Prop
  | t :: _, _ => p t.kind
  | [], .ok _ => True
  | [], .error _ => False

lemma ahead_cases (kind : Token.Kind) (ts : List Token) (ending : Ending) :
    (∃ t us, ts = t :: us ∧ t.kind = kind) ∨ Ahead (· ≠ kind) ts ending ∨
      ∃ fault, ts = [] ∧ ending = .error fault := by
  cases ts with
  | cons t us =>
    by_cases ht : t.kind = kind
    · exact .inl ⟨t, us, rfl, ht⟩
    · exact .inr (.inl ht)
  | nil =>
    cases ending with
    | ok span => exact .inr (.inl trivial)
    | error fault => exact .inr (.inr ⟨fault, rfl, rfl⟩)

lemma runs_isNext_true {kind : Token.Kind} {t : Token} (ht : t.kind = kind) (ts : List Token) :
    Runs (isNext kind : Building σ _) (t :: ts) ending (.ok (true, t :: ts)) := by
  simpa only [ht, decide_true] using runs_isNext_cons kind t ts

lemma runs_isNext_false {kind : Token.Kind} (h : Ahead (· ≠ kind) ts ending) :
    Runs (isNext kind : Building σ _) ts ending (.ok (false, ts)) := by
  cases ts with
  | cons t ts =>
    have ht : t.kind ≠ kind := h
    simpa only [ht, decide_false] using runs_isNext_cons kind t ts
  | nil =>
    cases ending with
    | ok span => exact (runs_peek_end span).bind (runs_pure _)
    | error fault => exact h.elim

lemma runs_nextSpan_end (span : Span) :
    Runs (nextSpan : Building σ _) [] (.ok span) (.ok (span, [])) := by
  refine ⟨le_rfl, ?_⟩
  intro f hf _
  obtain ⟨g, hp, hs, he, rfl, hb⟩ := peek_of_offers_end hf
  exact ⟨g, (bind_of_ok hp).trans rfl, .spent hs he, hb⟩

lemma runs_throw (fault : Fault) : Runs (throw fault : Building σ α) ts ending (.error fault) :=
  fun f _ _ => ⟨f, rfl⟩

lemma runs_reject (cause : Fault.Cause) (ts : List Token) (ending : Ending) :
    Runs (reject cause : Building σ α) ts ending (.error (refusal cause ts ending)) := by
  cases ts with
  | cons t ts => exact ((runs_peek_cons t ts).bind (runs_pure t.span)).bind (runs_throw _)
  | nil =>
    cases ending with
    | ok span => exact (runs_nextSpan_end span).bind (runs_throw _)
    | error fault => exact (runs_peek_fault fault).bind_error.bind_error

lemma runs_expect {kind : Token.Kind} {t : Token} (ht : t.kind = kind) (needed : Text)
    (ts : List Token) :
    Runs (expect kind needed : Building σ _) (t :: ts) ending (.ok (t, ts)) := by
  refine (runs_peek_cons t ts).bind ?_
  dsimp only
  rw [if_pos ht]
  exact (runs_take t ts).discard.bind (runs_pure t)

lemma runs_expect_refused {kind : Token.Kind} (needed : Text) {ts : List Token}
    (hts : ∀ t ∈ ts.head?, t.kind ≠ kind) (ending : Ending) :
    Runs (expect kind needed : Building σ _) ts ending
      (.error (refusal (.unexpectedToken needed) ts ending)) := by
  cases ts with
  | cons t ts =>
    refine (runs_peek_cons t ts).bind ?_
    dsimp only
    rw [if_neg (hts t rfl)]
    exact runs_reject _ _ _
  | nil =>
    cases ending with
    | ok span => exact (runs_peek_end span).bind (runs_reject _ _ _)
    | error fault => exact (runs_peek_fault fault).bind_error

section Repetition

variable {step : Building σ (Option α)} {as : List α} {o : Except Fault (List α × List Token)}

lemma runs_repeatUpTo_none {n : Nat} (h : Runs step ts ending (.ok (none, rest))) :
    Runs (repeatUpTo step (n + 1)) ts ending (.ok ([], rest)) :=
  h.bind (runs_pure [])

lemma runs_repeatUpTo_some {n : Nat} (h : Runs step ts ending (.ok (some a, rest)))
    {o : Except Fault (List α × List Token)} (hmore : Runs (repeatUpTo step n) rest ending o) :
    Runs (repeatUpTo step (n + 1)) ts ending (o.map fun p => (a :: p.1, p.2)) := by
  refine h.bind ?_
  cases o with
  | ok r => exact hmore.bind (runs_pure (a :: r.1))
  | error fault => exact hmore.bind_error

def RunsMany (step : Building σ (Option α)) (ts : List Token) (ending : Ending)
    (o : Except Fault (List α × List Token)) : Prop :=
  ∀ n, ts.length < n → Runs (repeatUpTo step n) ts ending o

lemma RunsMany.nil (h : Runs step ts ending (.ok (none, rest))) :
    RunsMany step ts ending (.ok ([], rest)) := by
  intro n hn
  obtain ⟨m, rfl⟩ := Nat.exists_eq_succ_of_ne_zero (by omega : n ≠ 0)
  exact runs_repeatUpTo_none h

lemma RunsMany.cons (h : Runs step ts ending (.ok (some a, rest)))
    (hlen : rest.length < ts.length) (hmore : RunsMany step rest ending o) :
    RunsMany step ts ending (o.map fun p => (a :: p.1, p.2)) := by
  intro n hn
  obtain ⟨m, rfl⟩ := Nat.exists_eq_succ_of_ne_zero (by omega : n ≠ 0)
  exact runs_repeatUpTo_some h (hmore m (by omega))

lemma RunsMany.error {fault : Fault} (h : Runs step ts ending (.error fault)) :
    RunsMany step ts ending (.error fault) := by
  intro n hn
  obtain ⟨m, rfl⟩ := Nat.exists_eq_succ_of_ne_zero (by omega : n ≠ 0)
  exact h.bind_error

lemma RunsMany.many (h : RunsMany step ts ending o) : Runs (many step) ts ending o := by
  cases o with
  | error fault =>
    intro f hf hb
    exact h f.bound hb f hf hb
  | ok r =>
    refine ⟨(h (ts.length + 1) (by omega)).1, ?_⟩
    intro f hf hb
    exact (h f.bound hb).2 f hf hb

end Repetition

lemma supplies_ofCursor (c : Cursor) :
    Supplies c (Recording.ofCursor c).tokens (Recording.ofCursor c).ending := by
  induction hn : c.rest.length using Nat.strong_induction_on generalizing c with
  | _ n ih =>
    rcases hs : c.scan with ⟨_ | _ | t, d⟩
    · simpa [Recording.ofCursor, Cursor.drain_eq c, hs] using Supplies.fail hs
    · simpa [Recording.ofCursor, Cursor.drain_eq c, hs] using! Supplies.finish hs
    · have hd := ih d.rest.length (hn ▸ Cursor.length_rest_of_scan hs) d rfl
      simpa [Recording.ofCursor, Cursor.drain_eq c, hs] using Supplies.token hs hd

lemma length_ofCursor (c : Cursor) : (Recording.ofCursor c).tokens.length ≤ c.rest.length := by
  induction hn : c.rest.length using Nat.strong_induction_on generalizing c with
  | _ n ih =>
    rcases hs : c.scan with ⟨_ | _ | t, d⟩
    · simp [Recording.ofCursor, Cursor.drain_eq c, hs]
    · simp [Recording.ofCursor, Cursor.drain_eq c, hs]
    · have hlt := Cursor.length_rest_of_scan hs
      have hd := ih d.rest.length (by omega) d rfl
      simp only [Recording.ofCursor, Cursor.drain_eq c, hs, List.length_cons] at hd ⊢
      omega

lemma supplies_recording (ts : List Token) (ending : Ending) :
    Supplies (⟨ts, ending⟩ : Recording) ts ending := by
  induction ts with
  | nil =>
    cases ending with
    | ok span => exact Supplies.finish (s := (⟨[], .ok span⟩ : Recording)) rfl
    | error fault => exact .fail rfl
  | cons t ts ih => exact .token rfl ih

def outcome (x : Building σ α) (f : Feed σ) : Except Fault α :=
  match x f with
  | .ok a _ => .ok a
  | .error fault _ => .error fault

lemma outcome_of_offers {f : Feed σ} {o : Except Fault (α × List Token)} (hf : Offers f ts ending)
    (hb : ts.length < f.bound) (h : Runs x ts ending o) : outcome x f = o.map Prod.fst := by
  cases o with
  | error fault =>
    obtain ⟨g, hg⟩ := h _ hf hb
    simp [outcome, hg, Except.map]
  | ok r =>
    obtain ⟨g, hg, _⟩ := h.2 _ hf hb
    simp [outcome, hg, Except.map]

lemma evaluate_of_supplies {s : σ} {o : Except Fault (α × List Token)} (hs : Supplies s ts ending)
    (hlen : ts.length ≤ TokenSource.remaining s) (h : Runs x ts ending o) :
    evaluate x s = o.map Prod.fst :=
  outcome_of_offers (.fresh rfl rfl hs) (Nat.lt_succ_of_le hlen) h

lemma evaluate_of_runs {x : Building Cursor α} {c : Cursor} {o : Except Fault (α × List Token)}
    (h : Runs x (Recording.ofCursor c).tokens (Recording.ofCursor c).ending o) :
    evaluate x c = o.map Prod.fst :=
  evaluate_of_supplies (supplies_ofCursor c) (length_ofCursor c) h

lemma evaluate_recording {x : Building Recording α} {o : Except Fault (α × List Token)}
    (h : Runs x ts ending o) : evaluate x ⟨ts, ending⟩ = o.map Prod.fst :=
  evaluate_of_supplies (supplies_recording ts ending) le_rfl h

end BraceMarkup.Feed
