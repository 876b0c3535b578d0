import BraceMarkup.Proofs.Token.Braces
import BraceMarkup.Proofs.Token.Lockstep

/-! Actions under observation. An observed source keeps in mind what it has given and how many calls
are going on inside each other, and notes both whenever a token is asked for, a call starts or a
call ends. Observation changes no outcome. -/

namespace BraceMarkup

open Token

variable {σ α β : Type}

structure Observed (σ : Type) where
  source : σ
  given : List Token := []
  active : Nat := 0
  seen : List (Nat × List Token) := []

namespace Observed

def received : Except Fault (Option Token) → List Token
  | .ok t => t.toList
  | .error _ => []

def hear (o : Observed σ) (answer : Except Fault (Option Token)) (source : σ) : Observed σ where
  source := source
  given := o.given ++ received answer
  active := o.active
  seen := (o.active, o.given) :: o.seen

instance [TokenSource σ] : TokenSource (Observed σ) where
  next o :=
    let (answer, source) := TokenSource.next o.source
    (answer, o.hear answer source)
  span o := TokenSource.span o.source
  remaining o := TokenSource.remaining o.source

lemma next_eq [TokenSource σ] {o : Observed σ} {answer : Except Fault (Option Token)} {s : σ}
    (h : TokenSource.next o.source = (answer, s)) :
    TokenSource.next o = (answer, o.hear answer s) := by
  simp only [TokenSource.next, h]

end Observed

namespace Feed

def taken (f : Feed (Observed σ)) : List Token :=
  f.source.given.take (f.source.given.length - f.slot.toList.length)

def note (f : Feed (Observed σ)) : Feed (Observed σ) :=
  { f with source.seen := (f.source.active, f.taken) :: f.source.seen }

def enter (f : Feed (Observed σ)) : Feed (Observed σ) :=
  note { f with source.active := f.source.active + 1 }

def leave (f : Feed (Observed σ)) : Feed (Observed σ) :=
  { f.note with source.active := f.source.active - 1 }

def call (x : Building (Observed σ) α) : Building (Observed σ) α := do
  modify enter
  let a ← x
  modify leave
  return a

section Call

variable {x : Building (Observed σ) α} {f g : Feed (Observed σ)}

lemma call_of_ok {a : α} (h : x f.enter = .ok a g) : call x f = .ok a g.leave := by
  have henter : (modify enter : Building (Observed σ) Unit) f = .ok () f.enter := rfl
  exact (bind_of_ok henter).trans ((bind_of_ok h).trans rfl)

lemma call_of_error {fault : Fault} (h : x f.enter = .error fault g) :
    call x f = .error fault g := by
  have henter : (modify enter : Building (Observed σ) Unit) f = .ok () f.enter := rfl
  exact (bind_of_ok henter).trans (bind_of_error h)

end Call

def notes (x : Building (Observed σ) α) (f : Feed (Observed σ)) : List (Nat × List Token) :=
  match x f with
  | .ok _ g | .error _ g => g.source.seen

def erase (f : Feed (Observed σ)) : Feed σ :=
  ⟨f.source.source, f.slot, f.ended, f.bound⟩

variable [TokenSource σ]

def observing : Pairing σ (Observed σ) where
  going f g := g.erase = f
  failed _ _ _ := True
  excused _ := False

lemma lawful_observing : (observing : Pairing σ (Observed σ)).Lawful where
  alike := by
    rintro f g rfl
    exact ⟨rfl, rfl, rfl⟩
  span_eq := by
    rintro f g rfl _
    rfl
  drop := by
    rintro f g rfl
    rfl
  ask := by
    rintro f g rfl hs he
    rcases hn : TokenSource.next g.source.source with ⟨fault | _ | t, s⟩
    · rw [peek_of_fault hs he hn, peek_of_fault (f := g) hs he (Observed.next_eq hn)]
      exact .failed trivial
    · rw [peek_of_end hs he hn, peek_of_end (f := g) hs he (Observed.next_eq hn)]
      exact .ok rfl
    · rw [peek_of_token hs he hn, peek_of_token (f := g) hs he (Observed.next_eq hn)]
      exact .ok rfl

lemma Lockstep.call {x : Building σ α} {y : Building (Observed σ) α}
    (h : Lockstep observing x y) : Lockstep observing x (Feed.call y) := by
  rintro f g rfl
  have hagree := h g.erase g.enter rfl
  generalize hxf : x g.erase = r at hagree
  generalize hyg : y g.enter = r' at hagree
  cases hagree with
  | ok hgoing =>
    rw [call_of_ok hyg]
    exact .ok hgoing
  | refused hgoing hc hshows =>
    rw [call_of_error hyg]
    exact .refused hgoing hc hshows
  | failed hfailed =>
    rw [call_of_error hyg]
    exact .failed hfailed
  | excused hexcused => exact hexcused.elim

structure Watch where
  tokens : List Token
  ending : Ending
  limit : Nat
  ending_ne : ∀ fault, ending = .error fault → fault.cause ≠ .nestingTooDeep

namespace Watch

variable (W : Watch)

def Allowed (note : Nat × List Token) : Prop :=
  note.2 <+: W.tokens ∧ (note.1 : Int) ≤ 2 + openBraces note.2

structure Stands (f : Feed (Observed σ)) (a : Nat) (w ts : List Token) : Prop where
  tokens_eq : W.tokens = w ++ ts
  offers : Offers f.erase ts W.ending
  given_eq : f.source.given = w ++ f.slot.toList
  active_eq : f.source.active = a
  lt_bound : ts.length < f.bound
  allowed : ∀ note ∈ f.source.seen, W.Allowed note
  levels : ∀ k, 0 < k → k ≤ a → ∃ w, (k, w) ∈ f.source.seen

structure Stopped (fault : Fault) (f : Feed (Observed σ)) : Prop where
  allowed : ∀ note ∈ f.source.seen, W.Allowed note
  tooDeep : fault.cause = .nestingTooDeep → ∃ w, (W.limit + 1, w) ∈ f.source.seen

/-- What an action gives, takes and leaves satisfies `Q`, and all that is noted is allowed. -/
def Keeps (a : Nat) (w ts : List Token) (x : Building (Observed σ) α)
    (Q : α → List Token → List Token → Prop) : Prop :=
  ∀ f, W.Stands f a w ts →
    (∃ r v rest g, x f = .ok r g ∧ ts = v ++ rest ∧ W.Stands g a (w ++ v) rest ∧ Q r v rest) ∨
    ∃ fault g, x f = .error fault g ∧ W.Stopped fault g

variable {W} {a : Nat} {w ts : List Token} {f : Feed (Observed σ)} {x : Building (Observed σ) α}
  {Q : α → List Token → List Token → Prop}

lemma Stands.taken_eq (h : W.Stands f a w ts) : f.taken = w := by
  rw [taken, h.given_eq, List.length_append, Nat.add_sub_cancel, List.take_left]

lemma Stands.allowed_cons {k : Nat} (h : W.Stands f a w ts) (hk : (k : Int) ≤ 2 + openBraces w) :
    ∀ note ∈ (k, w) :: f.source.seen, W.Allowed note := by
  intro note hnote
  rcases List.mem_cons.mp hnote with rfl | hnote
  · exact ⟨⟨ts, h.tokens_eq.symm⟩, hk⟩
  · exact h.allowed note hnote

lemma Stands.levels_cons {k : Nat} (h : W.Stands f a w ts) (hk : 0 < k) (hka : k ≤ a)
    (note : Nat × List Token) : ∃ w, (k, w) ∈ note :: f.source.seen := by
  obtain ⟨v, hv⟩ := h.levels k hk hka
  exact ⟨v, List.mem_cons_of_mem note hv⟩

namespace Keeps

lemma pure {r : α} (h : Q r [] ts) : W.Keeps a w ts (Pure.pure r : Building (Observed σ) α) Q :=
  fun f hf => .inl ⟨r, [], ts, f, rfl, rfl, by rwa [List.append_nil], h⟩

lemma bind {k : α → Building (Observed σ) β} {R : β → List Token → List Token → Prop}
    (hx : W.Keeps a w ts x Q)
    (hk : ∀ r v rest, ts = v ++ rest → Q r v rest →
      W.Keeps a (w ++ v) rest (k r) fun r' v' rest' => R r' (v ++ v') rest') :
    W.Keeps a w ts (x >>= k) R := by
  intro f hf
  rcases hx f hf with ⟨r, v, rest, g, hok, hts, hg, hQ⟩ | ⟨fault, g, herror, hstop⟩
  · rw [bind_of_ok hok]
    rcases hk r v rest hts hQ g hg with ⟨r', v', rest', g', hok', hts', hg', hR⟩ | herror
    · refine .inl ⟨r', v ++ v', rest', g', hok', ?_, ?_, hR⟩
      · rw [hts, hts', List.append_assoc]
      · rwa [← List.append_assoc]
    · exact .inr herror
  · rw [bind_of_error herror]
    exact .inr ⟨fault, g, rfl, hstop⟩

lemma notes (hx : W.Keeps a w ts x Q) (hf : W.Stands f a w ts) :
    (∀ note ∈ Feed.notes x f, W.Allowed note) ∧
    ∀ fault, outcome x f = .error fault → fault.cause = .nestingTooDeep →
      ∃ w, (W.limit + 1, w) ∈ Feed.notes x f := by
  rcases hx f hf with ⟨r, v, rest, g, hok, -, hg, -⟩ | ⟨fault, g, herror, hg⟩
  · simp only [Feed.notes, outcome, hok]
    refine ⟨hg.allowed, fun fault h => ?_⟩
    cases h
  · simp only [Feed.notes, outcome, herror]
    refine ⟨hg.allowed, ?_⟩
    intro fault' h
    cases h
    exact hg.tooDeep

end Keeps

lemma Stands.allowed_hear (h : W.Stands f a w ts) (ha : (a : Int) ≤ 2 + openBraces w)
    (hs : f.slot = none) (answer : Except Fault (Option Token)) (s : σ) :
    ∀ note ∈ (f.source.hear answer s).seen, W.Allowed note := by
  have hseen : (f.source.hear answer s).seen = (a, w) :: f.source.seen := by
    rw [Observed.hear, h.active_eq, h.given_eq, hs, Option.toList_none, List.append_nil]
  rw [hseen]
  exact h.allowed_cons ha

lemma Stands.hear {answer : Except Fault (Option Token)} {s : σ} {slot : Option Token}
    {ended : Bool} (h : W.Stands f a w ts) (ha : (a : Int) ≤ 2 + openBraces w) (hs : f.slot = none)
    (hslot : Observed.received answer = slot.toList)
    (hoffers : Offers ⟨s, slot, ended, f.bound⟩ ts W.ending) :
    W.Stands ⟨f.source.hear answer s, slot, ended, f.bound⟩ a w ts := by
  refine ⟨h.tokens_eq, hoffers, ?_, h.active_eq, h.lt_bound, h.allowed_hear ha hs answer s,
    fun k hk hka => h.levels_cons hk hka _⟩
  change f.source.given ++ Observed.received answer = _
  rw [hslot, h.given_eq, hs, Option.toList_none, List.append_nil]

lemma keeps_peek (ha : (a : Int) ≤ 2 + openBraces w) :
    W.Keeps a w ts (peek : Building (Observed σ) _) fun r v _ => r = ts.head? ∧ v = [] := by
  intro f hf
  have hstay {t : Option Token} {g : Feed (Observed σ)} (hp : peek f = .ok t g) (ht : t = ts.head?)
      (hg : W.Stands g a w ts) :
      ∃ r v rest g, peek f = .ok r g ∧ ts = v ++ rest ∧ W.Stands g a (w ++ v) rest ∧
        r = ts.head? ∧ v = [] :=
    ⟨t, [], ts, g, hp, rfl, by rwa [List.append_nil], ht, rfl⟩
  have hoffers := hf.offers
  generalize hending : W.ending = ending at hoffers
  cases hoffers with
  | @held t _ _ hs he h =>
    have hs : f.slot = some t := hs
    exact .inl (hstay (by simp [peek, hs]) rfl hf)
  | spent hs he =>
    have hs : f.slot = none := hs
    have he : f.ended = true := he
    exact .inl (hstay (by simp [peek, hs, he]) rfl hf)
  | fresh hs he h =>
    cases h with
    | @token _ s t ts _ hn h =>
      rw [← hending] at h
      refine .inl (hstay (peek_of_token (f := f) hs he (Observed.next_eq hn)) rfl ?_)
      exact hf.hear ha hs rfl (.held rfl he h)
    | @finish _ s hn =>
      refine .inl (hstay (peek_of_end (f := f) hs he (Observed.next_eq hn)) rfl ?_)
      have hslot : f.slot = none := hs
      apply hf.hear ha hs
      · rw [hslot]
        rfl
      · rw [hending]
        exact .spent hs rfl
    | @fail _ s fault hn =>
      refine .inr ⟨fault, _, peek_of_fault (f := f) hs he (Observed.next_eq hn), ?_, ?_⟩
      · exact hf.allowed_hear ha hs _ s
      · exact fun hc => (W.ending_ne fault hending hc).elim

lemma Stands.drop {t : Token} {rest : List Token} (h : W.Stands f a w (t :: rest))
    (hs : f.slot = some t) : W.Stands { f with slot := none } a (w ++ [t]) rest := by
  have hoffers := h.offers
  generalize hending : W.ending = ending at hoffers
  cases hoffers with
  | held _ he hsupplies =>
    have hgiven := h.given_eq
    rw [hs, Option.toList_some] at hgiven
    refine ⟨?_, ?_, ?_, h.active_eq, ?_, h.allowed, h.levels⟩
    · rw [h.tokens_eq, List.append_cons]
    · rw [hending]
      exact .fresh rfl he hsupplies
    · rw [Option.toList_none, List.append_nil]
      exact hgiven
    · exact (Nat.lt_succ_self _).trans h.lt_bound
  | fresh hnone =>
    have hnone : f.slot = none := hnone
    rw [hs] at hnone
    cases hnone

lemma keeps_take (ha : (a : Int) ≤ 2 + openBraces w) :
    W.Keeps a w ts (take : Building (Observed σ) _) fun r v _ =>
      r = ts.head? ∧ v = ts.head?.toList := by
  intro f hf
  rcases keeps_peek ha f hf with ⟨r, v, rest, g, hok, hts, hg, hr, rfl⟩ | ⟨fault, g, herror, hstop⟩
  · obtain rfl : ts = rest := hts
    rw [List.append_nil] at hg
    have hslot := (slot_of_peek hok).1
    refine .inl ⟨r, ts.head?.toList, ts.tail, { g with slot := none }, (bind_of_ok hok).trans rfl,
      ?_, ?_, hr, rfl⟩
    · cases ts <;> rfl
    · cases ts with
      | nil =>
        obtain ⟨source, slot, ended, bound⟩ := g
        obtain rfl : slot = none := hslot.trans hr
        rwa [List.head?_nil, Option.toList_none, List.append_nil, List.tail_nil]
      | cons t ts => exact hg.drop (hslot.trans hr)
  · exact .inr ⟨fault, g, bind_of_error herror, hstop⟩

section Rules

variable (ha : (a : Int) ≤ 2 + openBraces w)
include ha

lemma keeps_peek_bind {k : Option Token → Building (Observed σ) α}
    (hk : W.Keeps a w ts (k ts.head?) Q) : W.Keeps a w ts (peek >>= k) Q := by
  refine (keeps_peek ha).bind ?_
  rintro r v rest rfl ⟨rfl, rfl⟩
  rw [List.append_nil]
  exact hk

lemma keeps_isNext_bind {kind : Token.Kind} {k : Bool → Building (Observed σ) α}
    (htrue : ∀ t us, ts = t :: us → t.kind = kind → W.Keeps a w ts (k true) Q)
    (hfalse : (∀ t ∈ ts.head?, t.kind ≠ kind) → W.Keeps a w ts (k false) Q) :
    W.Keeps a w ts (isNext kind >>= k) Q := by
  rw [isNext, bind_assoc]
  apply keeps_peek_bind ha
  cases ts with
  | nil => exact hfalse (by simp)
  | cons t ts =>
    by_cases ht : t.kind = kind
    · simpa only [List.head?_cons, ht, decide_true] using! htrue t ts rfl ht
    · simpa only [List.head?_cons, ht, decide_false] using! hfalse (by simpa using ht)

lemma keeps_take_bind {t : Token} {us : List Token} {k : Unit → Building (Observed σ) α}
    (hk : W.Keeps a (w ++ [t]) us (k ()) fun r v rest => Q r (t :: v) rest) :
    W.Keeps a w (t :: us) (discard take >>= k) Q := by
  have htake : W.Keeps a w (t :: us) (discard take : Building (Observed σ) Unit) fun _ v _ =>
      v = [t] := by
    refine (keeps_take ha).bind ?_
    rintro r v rest - ⟨-, rfl⟩
    exact .pure rfl
  refine htake.bind ?_
  rintro _ v rest hsplit rfl
  obtain rfl : us = rest := List.tail_eq_of_cons_eq hsplit
  exact hk

lemma keeps_reject {cause : Fault.Cause} (hc : cause = .nestingTooDeep → a = W.limit + 1) :
    W.Keeps a w ts (reject cause : Building (Observed σ) α) Q := by
  have hstop (span : Span) : W.Keeps a w ts (throw ⟨cause, span⟩ : Building (Observed σ) α) Q := by
    intro g hg
    refine .inr ⟨⟨cause, span⟩, g, rfl, hg.allowed, fun hcause => ?_⟩
    have hlimit := hc hcause
    exact hg.levels _ (by omega) hlimit.ge
  rw [reject, nextSpan, bind_assoc]
  apply keeps_peek_bind ha
  cases ts with
  | nil => exact fun g hg => hstop _ g hg
  | cons t ts => exact hstop t.span

lemma keeps_expect (kind : Token.Kind) (needed : Text) :
    W.Keeps a w ts (expect kind needed : Building (Observed σ) _) fun t v _ =>
      t.kind = kind ∧ v = [t] := by
  rw [expect]
  apply keeps_peek_bind ha
  cases ts with
  | nil => exact keeps_reject ha (by simp)
  | cons t ts =>
    by_cases ht : t.kind = kind
    · simp only [List.head?_cons, ht, if_true]
      exact keeps_take_bind ha (.pure ⟨ht, rfl⟩)
    · simp only [List.head?_cons, ht, if_false]
      exact keeps_reject ha (by simp)

end Rules

def Progress (Last : List Token → Prop) : Option α → List Token → List Token → Prop
  | none, v, rest => v = [] ∧ Last rest
  | some _, v, _ => v ≠ [] ∧ openBraces v = 0

lemma keeps_repeatUpTo {step : Building (Observed σ) (Option α)} {Last : List Token → Prop}
    {n : Nat} (hstep : ∀ w' ts', openBraces w' = openBraces w → W.Keeps a w' ts' step (Progress Last))
    (hn : ts.length < n) :
    W.Keeps a w ts (repeatUpTo step n) fun _ v rest => openBraces v = 0 ∧ Last rest := by
  induction n generalizing w ts with
  | zero => omega
  | succ n ih =>
    refine (hstep w ts rfl).bind ?_
    rintro (_ | r) v rest rfl hv
    · obtain ⟨rfl, hlast⟩ := hv
      exact .pure ⟨rfl, hlast⟩
    · obtain ⟨hne, hopen⟩ := hv
      have hlength := List.length_pos_iff.mpr hne
      rw [List.length_append] at hn
      have hw : openBraces (w ++ v) = openBraces w := by
        rw [openBraces_append, hopen, add_zero]
      refine (ih (fun w' ts' h => hstep w' ts' (h.trans hw)) (by omega)).bind ?_
      rintro rs v' rest' rfl ⟨hopen', hlast⟩
      refine .pure ⟨?_, hlast⟩
      rw [openBraces_append, List.append_nil, hopen, hopen', add_zero]

lemma keeps_many {step : Building (Observed σ) (Option α)} {Last : List Token → Prop}
    (hstep : ∀ w' ts', openBraces w' = openBraces w → W.Keeps a w' ts' step (Progress Last)) :
    W.Keeps a w ts (many step) fun _ v rest => openBraces v = 0 ∧ Last rest :=
  fun f hf => keeps_repeatUpTo hstep hf.lt_bound f hf

lemma Stands.enter (h : W.Stands f a w ts) (ha : ((a + 1 : Nat) : Int) ≤ 2 + openBraces w) :
    W.Stands f.enter (a + 1) w ts := by
  have hseen : f.enter.source.seen = (a + 1, w) :: f.source.seen := by
    rw [← h.active_eq, ← h.taken_eq]
    rfl
  refine ⟨h.tokens_eq, h.offers, h.given_eq, congrArg (· + 1) h.active_eq, h.lt_bound, ?_, ?_⟩
  · rw [hseen]
    exact h.allowed_cons ha
  · rw [hseen]
    intro k hk hka
    rcases Nat.of_le_succ hka with hka | rfl
    · exact h.levels_cons hk hka _
    · exact ⟨w, List.mem_cons_self⟩

lemma Stands.leave (h : W.Stands f (a + 1) w ts) (ha : ((a + 1 : Nat) : Int) ≤ 2 + openBraces w) :
    W.Stands f.leave a w ts := by
  have hseen : f.leave.source.seen = (a + 1, w) :: f.source.seen := by
    rw [← h.active_eq, ← h.taken_eq]
    rfl
  refine ⟨h.tokens_eq, h.offers, h.given_eq, congrArg (· - 1) h.active_eq, h.lt_bound, ?_, ?_⟩
  · rw [hseen]
    exact h.allowed_cons ha
  · rw [hseen]
    intro k hk hka
    exact h.levels_cons hk (by omega) _

lemma keeps_call (hx : W.Keeps (a + 1) w ts x Q) (ha : ((a + 1 : Nat) : Int) ≤ 2 + openBraces w)
    (hQ : ∀ r v rest, Q r v rest → openBraces v = 0) : W.Keeps a w ts (call x) Q := by
  intro f hf
  rcases hx f.enter (hf.enter ha) with ⟨r, v, rest, g, hok, hts, hg, hr⟩ | ⟨fault, g, herror, hstop⟩
  · refine .inl ⟨r, v, rest, g.leave, call_of_ok hok, hts, hg.leave ?_, hr⟩
    rw [openBraces_append, hQ r v rest hr, add_zero]
    exact ha
  · exact .inr ⟨fault, g, call_of_error herror, hstop⟩

end Watch

end Feed

end BraceMarkup
