import BraceMarkup.Proofs.Token.Supply

/-! One action run on two feeds. If the feeds match whenever a token is asked for, they match all
along, and both runs end in the same way. -/

namespace BraceMarkup.Feed

variable {σ τ α β : Type}

/-- How the feeds of two runs compare: while both go on, and when both sources have failed. The
first run may fail alone with a fault that is excused. -/
structure Pairing (σ τ : Type) where
  going : Feed σ → Feed τ → Prop
  failed : Fault → Feed σ → Feed τ → Prop
  excused : Fault → Prop

def Shows [TokenSource σ] (f : Feed σ) (span : Span) : Prop :=
  (∃ t, f.slot = some t ∧ span = t.span) ∨
    f.slot = none ∧ f.ended = true ∧ span = TokenSource.span f.source

inductive Agree [TokenSource σ] (P : Pairing σ τ) :
    EStateM.Result Fault (Feed σ) α → EStateM.Result Fault (Feed τ) α → Prop
  | ok {a : α} {f : Feed σ} {g : Feed τ} : P.going f g → Agree P (.ok a f) (.ok a g)
  | refused {fault : Fault} {f : Feed σ} {g : Feed τ} : P.going f g →
      fault.cause.kind.isLexical = false → f.Shows fault.span →
      Agree P (.error fault f) (.error fault g)
  | failed {fault : Fault} {f : Feed σ} {g : Feed τ} : P.failed fault f g →
      Agree P (.error fault f) (.error fault g)
  | excused {fault : Fault} {f : Feed σ} {r : EStateM.Result Fault (Feed τ) α} :
      P.excused fault → Agree P (.error fault f) r

variable [TokenSource σ]

def Lockstep (P : Pairing σ τ) (x : Building σ α) (y : Building τ α) : Prop :=
  ∀ f g, P.going f g → Agree P (x f) (y g)

variable {P : Pairing σ τ} {x : Building σ α} {y : Building τ α}

namespace Lockstep

lemma pure (a : α) : Lockstep P (Pure.pure a : Building σ α) (Pure.pure a : Building τ α) :=
  fun _ _ h => .ok h

lemma bind_of {k : α → Building σ β} {l : α → Building τ β} {Q : α → Feed σ → Prop}
    (hx : Lockstep P x y) (hQ : ∀ f a f', x f = .ok a f' → Q a f')
    (hk : ∀ a f g, P.going f g → Q a f → Agree P (k a f) (l a g)) :
    Lockstep P (x >>= k) (y >>= l) := by
  intro f g hfg
  generalize hxf : x f = r
  generalize hyg : y g = r'
  have hagree : Agree P r r' := hxf ▸ hyg ▸ hx f g hfg
  cases hagree with
  | ok h =>
    rw [bind_of_ok hxf, bind_of_ok hyg]
    exact hk _ _ _ h (hQ _ _ _ hxf)
  | refused h hc hs =>
    rw [bind_of_error hxf, bind_of_error hyg]
    exact .refused h hc hs
  | failed h =>
    rw [bind_of_error hxf, bind_of_error hyg]
    exact .failed h
  | excused h =>
    rw [bind_of_error hxf]
    exact .excused h

lemma bind {k : α → Building σ β} {l : α → Building τ β} (hx : Lockstep P x y)
    (hk : ∀ a, Lockstep P (k a) (l a)) : Lockstep P (x >>= k) (y >>= l) :=
  hx.bind_of (Q := fun _ _ => True) (fun _ _ _ _ => trivial) fun a f g h _ => hk a f g h

lemma discard (hx : Lockstep P x y) : Lockstep P (discard x) (discard y) :=
  hx.bind fun _ => .pure ()

lemma repeatUpTo {step : Building σ (Option α)} {step' : Building τ (Option α)}
    (h : Lockstep P step step') (n : Nat) :
    Lockstep P (Feed.repeatUpTo step n) (Feed.repeatUpTo step' n) := by
  induction n with
  | zero => exact .pure []
  | succ n ih =>
    refine h.bind fun a => ?_
    cases a with
    | none => exact .pure []
    | some a => exact ih.bind fun as => .pure (a :: as)

end Lockstep

lemma Agree.outcome_eq {f : Feed σ} {g : Feed τ} (h : Agree P (x f) (y g))
    (hex : ∀ fault, outcome x f = .error fault → ¬ P.excused fault) :
    outcome y g = outcome x f := by
  generalize hxf : x f = r at h
  generalize hyg : y g = r' at h
  cases h with
  | ok | refused | failed => simp only [outcome, hxf, hyg]
  | excused h => exact (hex _ (by simp only [outcome, hxf]) h).elim

variable [TokenSource τ]

structure Alike (f : Feed σ) (g : Feed τ) : Prop where
  slot_eq : g.slot = f.slot
  ended_eq : g.ended = f.ended
  bound_eq : g.bound = f.bound

structure Pairing.Lawful (P : Pairing σ τ) : Prop where
  alike {f : Feed σ} {g : Feed τ} : P.going f g → Alike f g
  span_eq {f : Feed σ} {g : Feed τ} : P.going f g → f.ended = true →
    TokenSource.span g.source = TokenSource.span f.source
  drop {f : Feed σ} {g : Feed τ} : P.going f g →
    P.going { f with slot := none } { g with slot := none }
  ask {f : Feed σ} {g : Feed τ} : P.going f g → f.slot = none → f.ended = false →
    Agree P (peek f) (peek g)

section Peek

variable {f : Feed σ} {s : σ} (hs : f.slot = none) (he : f.ended = false)
include hs he

lemma peek_of_token {t : Token} (h : TokenSource.next f.source = (.ok (some t), s)) :
    peek f = .ok (some t) { f with source := s, slot := some t } := by
  simp [peek, hs, he, h]

lemma peek_of_end (h : TokenSource.next f.source = (.ok none, s)) :
    peek f = .ok none { f with source := s, ended := true } := by
  simp [peek, hs, he, h]

lemma peek_of_fault {fault : Fault} (h : TokenSource.next f.source = (.error fault, s)) :
    peek f = .error fault { f with source := s } := by
  simp [peek, hs, he, h]

end Peek

lemma slot_of_peek {f f' : Feed σ} {t : Option Token} (h : peek f = .ok t f') :
    f'.slot = t ∧ (t = none → f'.ended = true) := by
  unfold peek at h
  split at h
  next t hs =>
    cases h
    exact ⟨hs, nofun⟩
  next hs =>
    split at h
    next he =>
      cases h
      exact ⟨hs, fun _ => he⟩
    next =>
      split at h
      next =>
        cases h
        exact ⟨hs, fun _ => rfl⟩
      next =>
        cases h
        exact ⟨rfl, nofun⟩
      next => cases h

lemma shows_of_nextSpan {f f' : Feed σ} {span : Span} (h : nextSpan f = .ok span f') :
    f'.Shows span := by
  cases hp : peek f with
  | error fault g => exact nomatch h.symm.trans (bind_of_error hp)
  | ok t g =>
    obtain ⟨hslot, hended⟩ := slot_of_peek hp
    have h := h.symm.trans (bind_of_ok hp)
    cases t with
    | none =>
      cases h
      exact .inr ⟨hslot, hended rfl, rfl⟩
    | some t =>
      cases h
      exact .inl ⟨t, hslot, rfl⟩

namespace Pairing.Lawful

variable (hP : P.Lawful)
include hP

lemma peek : Lockstep P (peek : Building σ _) peek := by
  intro f g hfg
  have hslot := (hP.alike hfg).slot_eq
  have hended := (hP.alike hfg).ended_eq
  cases hs : f.slot with
  | some t =>
    rw [hs] at hslot
    simpa [Feed.peek, hs, hslot] using Agree.ok hfg
  | none =>
    rw [hs] at hslot
    cases he : f.ended with
    | true =>
      rw [he] at hended
      simpa [Feed.peek, hs, he, hslot, hended] using Agree.ok hfg
    | false => exact hP.ask hfg hs he

lemma take : Lockstep P (take : Building σ _) take := by
  refine hP.peek.bind fun t => ?_
  intro f g hfg
  exact .ok (hP.drop hfg)

lemma isNext (kind : Token.Kind) : Lockstep P (isNext kind : Building σ _) (isNext kind) := by
  refine hP.peek.bind fun t => ?_
  cases t with
  | none => exact .pure false
  | some t => exact .pure _

lemma nextSpan : Lockstep P (nextSpan : Building σ _) nextSpan := by
  refine hP.peek.bind_of (fun _ _ _ => slot_of_peek) ?_
  rintro (_ | t) f g hfg ⟨_, hended⟩
  · have hspan := hP.span_eq hfg (hended rfl)
    change Agree P (.ok (TokenSource.span f.source) f) (.ok (TokenSource.span g.source) g)
    rw [hspan]
    exact .ok hfg
  · exact .ok hfg

lemma reject {cause : Fault.Cause} (hc : cause.kind.isLexical = false) :
    Lockstep P (reject cause : Building σ α) (reject cause) := by
  refine hP.nextSpan.bind_of (fun _ _ _ => shows_of_nextSpan) ?_
  intro span f g hfg hshows
  exact .refused hfg hc hshows

lemma expect (kind : Token.Kind) (needed : Text) :
    Lockstep P (expect kind needed : Building σ _) (expect kind needed) := by
  refine hP.peek.bind fun t => ?_
  cases t with
  | none => exact hP.reject rfl
  | some t =>
    by_cases ht : t.kind = kind
    · simpa only [ht, if_true] using hP.take.discard.bind fun _ => .pure t
    · simpa only [ht, if_false] using hP.reject rfl

lemma many {step : Building σ (Option α)} {step' : Building τ (Option α)}
    (h : Lockstep P step step') : Lockstep P (many step) (many step') := by
  intro f g hfg
  have hmore := h.repeatUpTo f.bound f g hfg
  have hbound := (hP.alike hfg).bound_eq
  change Agree P (Feed.repeatUpTo step f.bound f) (Feed.repeatUpTo step' g.bound g)
  rwa [hbound]

end Pairing.Lawful

end BraceMarkup.Feed
