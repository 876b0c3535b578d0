import BraceMarkup.Proofs.Token.Exhaustion
import BraceMarkup.Proofs.Token.Lockstep

/-! One token of lookahead loses no token and repeats none, in whatever order the operations on a
feed come and however many of them fail. Each operation looks at the next token, and what it does
then depends on that token alone. A log of the source shows when it is asked and what it answers. -/

namespace BraceMarkup

variable {σ α : Type}

structure Logged (σ : Type) where
  source : σ
  answers : List (Except Fault (Option Token)) := []

namespace Logged

def note (l : Logged σ) (answer : Except Fault (Option Token)) (source : σ) : Logged σ :=
  ⟨source, l.answers ++ [answer]⟩

instance [TokenSource σ] : TokenSource (Logged σ) where
  next l :=
    let (answer, source) := TokenSource.next l.source
    (answer, l.note answer source)
  span l := TokenSource.span l.source
  remaining l := TokenSource.remaining l.source

def tokens (l : Logged σ) : List Token :=
  l.answers.filterMap fun answer => answer.toOption.join

lemma next_eq [TokenSource σ] {l : Logged σ} {answer : Except Fault (Option Token)} {s : σ}
    (h : TokenSource.next l.source = (answer, s)) :
    TokenSource.next l = (answer, l.note answer s) := by
  simp only [TokenSource.next, h]

lemma tokens_note (l : Logged σ) (answer : Except Fault (Option Token)) (s : σ) :
    (l.note answer s).tokens = l.tokens ++ answer.toOption.join.toList := by
  rw [tokens, note, List.filterMap_append, tokens]
  cases h : answer.toOption.join <;> simp [h]

end Logged

lemma Cursor.isLexical_of_scan {c d : Cursor} {fault : Fault} (h : c.scan = (.error fault, d)) :
    fault.cause.kind.isLexical = true := by
  rcases scan_of_error h with ⟨⟨ch, hcause⟩, -⟩ | ⟨hcause, -⟩
  · rw [hcause]
    rfl
  · simp only [Fault.Cause.malformed, List.mem_cons, List.not_mem_nil, or_false] at hcause
    rcases hcause with hcause | hcause | hcause | hcause <;> rw [hcause] <;> rfl

namespace Feed

inductive Operation
  | peek
  | take
  | isNext (kind : Token.Kind)
  | expect (kind : Token.Kind) (needed : Text)
  | nextSpan

inductive Reply
  | token (t : Option Token)
  | truth (b : Bool)
  | span (p : Span)
  | failed (fault : Fault)

def obtained : Operation × Reply → List Token
  | (.take, .token t) | (.expect _ _, .token t) => t.toList
  | _ => []

def Settled (f : Feed σ) (t : Option Token) : Prop :=
  f.slot = t ∧ (t = none → f.ended = true)

def unlog (f : Feed (Logged σ)) : Feed σ :=
  ⟨f.source.source, f.slot, f.ended, f.bound⟩

lemma settled_or_fresh (f : Feed σ) : (∃ t, f.Settled t) ∨ f.slot = none ∧ f.ended = false := by
  cases hs : f.slot with
  | some t => exact .inl ⟨some t, hs, by simp⟩
  | none =>
    cases he : f.ended with
    | true => exact .inl ⟨none, hs, fun _ => he⟩
    | false => exact .inr ⟨rfl, rfl⟩

lemma Settled.drop {f : Feed σ} (h : f.Settled none) : { f with slot := none } = f := by
  obtain ⟨source, slot, ended, bound⟩ := f
  obtain rfl : slot = none := h.1
  rfl

namespace Operation

def reply (op : Operation) (t : Option Token) (place : Span) : Reply :=
  match op with
  | .peek | .take => .token t
  | .isNext kind => .truth (t.any (·.kind = kind))
  | .expect kind needed =>
    if t.any (·.kind = kind) then .token t
    else .failed ⟨.unexpectedToken needed, t.elim place Token.span⟩
  | .nextSpan => .span (t.elim place Token.span)

def takes (op : Operation) (t : Option Token) : Bool :=
  match op with
  | .take => true
  | .expect kind _ => t.any (·.kind = kind)
  | .peek | .isNext _ | .nextSpan => false

def leave (op : Operation) (t : Option Token) (f : Feed σ) : Feed σ :=
  if op.takes t then { f with slot := none } else f

lemma source_leave (op : Operation) (t : Option Token) (f : Feed σ) :
    (op.leave t f).source = f.source := by
  cases h : op.takes t <;> simp [leave, h]

lemma leave_unlog (op : Operation) (t : Option Token) (f : Feed (Logged σ)) :
    op.leave t f.unlog = (op.leave t f).unlog := by
  cases h : op.takes t <;> simp [leave, h, unlog]

lemma obtained_reply (op : Operation) (t : Option Token) (place : Span) :
    obtained (op, op.reply t place) = if op.takes t then t.toList else [] := by
  cases op with
  | peek | isNext | nextSpan => rfl
  | take => rfl
  | expect kind needed =>
    cases ht : t.any (·.kind = kind) <;> simp [reply, takes, ht, obtained]

lemma leave_of_obtained {op : Operation} {t : Option Token} {f : Feed σ} {place : Span}
    (h : f.Settled t) (hnone : obtained (op, op.reply t place) = []) : op.leave t f = f := by
  rw [obtained_reply] at hnone
  cases htakes : op.takes t with
  | false => simp [leave, htakes]
  | true =>
    obtain rfl : t = none := by simpa [htakes] using hnone
    simp [leave, htakes, h.drop]

end Operation

section Performing

variable [TokenSource σ]

def respond (reply : α → Reply) (x : Building σ α) (f : Feed σ) : Reply × Feed σ :=
  match x f with
  | .ok a g => (reply a, g)
  | .error fault g => (.failed fault, g)

def Operation.perform : Operation → Feed σ → Reply × Feed σ
  | .peek => respond .token Feed.peek
  | .take => respond .token Feed.take
  | .isNext kind => respond .truth (Feed.isNext kind)
  | .expect kind needed => respond (fun t => .token (some t)) (Feed.expect kind needed)
  | .nextSpan => respond .span Feed.nextSpan

def performAll : List Operation → Feed σ → List (Operation × Reply) × Feed σ
  | [], f => ([], f)
  | op :: ops, f =>
    let (reply, f) := op.perform f
    let (history, f) := performAll ops f
    ((op, reply) :: history, f)

variable {f g : Feed σ} {t : Option Token} {fault : Fault}

lemma Settled.peek (h : f.Settled t) : Feed.peek f = .ok t f := by
  obtain ⟨hslot, hended⟩ := h
  cases t with
  | none => simp [Feed.peek, hslot, hended rfl]
  | some t => simp [Feed.peek, hslot]

lemma nextSpan_of_peek (h : peek f = .ok t g) :
    nextSpan f = .ok (t.elim (TokenSource.span g.source) Token.span) g := by
  refine (bind_of_ok h).trans ?_
  cases t <;> rfl

lemma isNext_of_peek (h : peek f = .ok t g) (kind : Token.Kind) :
    isNext kind f = .ok (t.any (·.kind = kind)) g := by
  refine (bind_of_ok h).trans ?_
  cases t <;> rfl

lemma reject_of_settled (h : f.Settled t) (cause : Fault.Cause) :
    (reject cause : Building σ α) f =
      .error ⟨cause, t.elim (TokenSource.span f.source) Token.span⟩ f :=
  (bind_of_ok (nextSpan_of_peek h.peek)).trans rfl

lemma expect_of_peek {u : Token} {kind : Token.Kind} (h : peek f = .ok (some u) g)
    (hu : u.kind = kind) (needed : Text) :
    expect kind needed f = .ok u { g with slot := none } := by
  have hsettled : g.Settled (some u) := slot_of_peek h
  have htake : take g = .ok (some u) { g with slot := none } :=
    (bind_of_ok hsettled.peek).trans rfl
  have hdiscard : (discard take : Building σ Unit) g = .ok () { g with slot := none } :=
    (bind_of_ok htake).trans rfl
  refine (bind_of_ok h).trans ?_
  dsimp only
  rw [if_pos hu]
  exact (bind_of_ok hdiscard).trans rfl

lemma expect_of_peek_refused {kind : Token.Kind} (h : peek f = .ok t g)
    (ht : t.any (·.kind = kind) = false) (needed : Text) :
    expect kind needed f =
      .error ⟨.unexpectedToken needed, t.elim (TokenSource.span g.source) Token.span⟩ g := by
  have hsettled : g.Settled t := slot_of_peek h
  refine (bind_of_ok h).trans ?_
  cases t with
  | none => exact reject_of_settled hsettled _
  | some u =>
    have hu : u.kind ≠ kind := by simpa using ht
    dsimp only
    rw [if_neg hu]
    exact reject_of_settled hsettled _

namespace Operation

lemma perform_of_error (h : Feed.peek f = .error fault g) (op : Operation) :
    op.perform f = (.failed fault, g) := by
  cases op with
  | peek => simp only [perform, respond, h]
  | take => simp only [perform, respond, Feed.take, bind_of_error h]
  | isNext kind => simp only [perform, respond, Feed.isNext, bind_of_error h]
  | expect kind needed => simp only [perform, respond, Feed.expect, bind_of_error h]
  | nextSpan => simp only [perform, respond, Feed.nextSpan, bind_of_error h]

lemma perform_of_ok (h : Feed.peek f = .ok t g) (op : Operation) :
    op.perform f = (op.reply t (TokenSource.span g.source), op.leave t g) := by
  cases op with
  | peek =>
    simp only [perform, respond, h]
    rfl
  | take =>
    simp only [perform, respond, Feed.take, bind_of_ok h]
    rfl
  | isNext kind =>
    simp only [perform, respond, isNext_of_peek h]
    rfl
  | nextSpan =>
    simp only [perform, respond, nextSpan_of_peek h]
    rfl
  | expect kind needed =>
    cases ht : t.any (·.kind = kind) with
    | false => simp [perform, respond, expect_of_peek_refused h ht, reply, leave, takes, ht]
    | true =>
      obtain ⟨u, rfl, hkind⟩ := (Option.any_eq_true _ _).mp ht
      have hu : u.kind = kind := of_decide_eq_true hkind
      simp [perform, respond, expect_of_peek h hu, reply, leave, takes, ht]

lemma perform_unlog (op : Operation) (f : Feed (Logged σ)) :
    op.perform f.unlog = ((op.perform f).1, (op.perform f).2.unlog) := by
  rcases settled_or_fresh f with ⟨t, h⟩ | ⟨hs, he⟩
  · have h' : f.unlog.Settled t := h
    rw [perform_of_ok h.peek, perform_of_ok h'.peek, leave_unlog]
    rfl
  · rcases hn : TokenSource.next f.source.source with ⟨fault | _ | t, s⟩
    · rw [perform_of_error (peek_of_fault hs he (Logged.next_eq hn)),
        perform_of_error (peek_of_fault (f := f.unlog) hs he hn)]
      rfl
    · rw [perform_of_ok (peek_of_end hs he (Logged.next_eq hn)),
        perform_of_ok (peek_of_end (f := f.unlog) hs he hn), ← leave_unlog]
      rfl
    · rw [perform_of_ok (peek_of_token hs he (Logged.next_eq hn)),
        perform_of_ok (peek_of_token (f := f.unlog) hs he hn), ← leave_unlog]
      rfl

end Operation

lemma performAll_unlog (ops : List Operation) (f : Feed (Logged σ)) :
    performAll ops f.unlog = ((performAll ops f).1, (performAll ops f).2.unlog) := by
  induction ops generalizing f with
  | nil => rfl
  | cons op ops ih => simp only [performAll, Operation.perform_unlog, ih]

lemma performAll_of_settled (ops : List Operation) (h : f.Settled t)
    (hnone : t = none ∨ (performAll ops f).1.flatMap obtained = []) :
    (performAll ops f).2 = f ∧
      ∀ op reply, (op, reply) ∈ (performAll ops f).1 →
        reply = op.reply t (TokenSource.span f.source) := by
  induction ops with
  | nil => exact ⟨rfl, by simp [performAll]⟩
  | cons op ops ih =>
    simp only [performAll, Operation.perform_of_ok h.peek, List.flatMap_cons,
      List.append_eq_nil_iff] at hnone ⊢
    have hobtained : obtained (op, op.reply t (TokenSource.span f.source)) = [] := by
      rcases hnone with rfl | hnone
      · simp [Operation.obtained_reply]
      · exact hnone.1
    rw [Operation.leave_of_obtained h hobtained] at hnone ⊢
    obtain ⟨hfeed, hreplies⟩ := ih (hnone.imp_right And.right)
    refine ⟨hfeed, ?_⟩
    intro op' reply' hmem
    rcases List.mem_cons.mp hmem with heq | hmem
    · obtain ⟨rfl, rfl⟩ := Prod.mk.inj heq
      rfl
    · exact hreplies op' reply' hmem

end Performing

/-- The log holds the first answers of the cursor, and their tokens are those taken and the one in
the slot. The feed has ended when the cursor has answered that there is nothing more. -/
structure Accounted (c : Cursor) (f : Feed (Logged Cursor)) (taken : List Token) : Prop where
  source_eq : f.source.source = c.afterCalls f.source.answers.length
  answers_eq : f.source.answers = (List.range f.source.answers.length).map c.answer
  tokens_eq : f.source.tokens = taken ++ f.slot.toList
  ended_iff : f.ended = true ↔ .ok none ∈ f.source.answers
  slot_of_ended : f.ended = true → f.slot = none

namespace Accounted

variable {c : Cursor} {f : Feed (Logged Cursor)} {taken : List Token}

lemma ask {answer : Except Fault (Option Token)} {s : Cursor} (ended : Bool)
    (h : Accounted c f taken) (hs : f.slot = none) (he : f.ended = false)
    (hn : f.source.source.scan = (answer, s)) (hended : ended = true ↔ answer = .ok none) :
    Accounted c ⟨f.source.note answer s, answer.toOption.join, ended, f.bound⟩ taken where
  source_eq := by
    simp [Logged.note, Cursor.afterCalls, ← h.source_eq, hn]
  answers_eq := by
    have hanswer : c.answer f.source.answers.length = answer := by
      rw [Cursor.answer, ← h.source_eq, hn]
    simp [Logged.note, List.range_succ, ← h.answers_eq, hanswer]
  tokens_eq := by
    rw [Logged.tokens_note, h.tokens_eq, hs]
    simp
  ended_iff := by
    have hbefore : .ok none ∉ f.source.answers := by simp [← h.ended_iff, he]
    simp [Logged.note, hbefore, hended, eq_comm]
  slot_of_ended hend := by
    rw [hended.mp hend]
    rfl

lemma leave {t : Option Token} {place : Span} (h : Accounted c f taken) (hf : f.Settled t)
    (op : Operation) :
    Accounted c (op.leave t f) (taken ++ obtained (op, op.reply t place)) := by
  rw [Operation.obtained_reply]
  cases htakes : op.takes t with
  | false => simpa [Operation.leave, htakes] using h
  | true =>
    have htokens : f.source.tokens = taken ++ t.toList := hf.1 ▸ h.tokens_eq
    simp only [Operation.leave, htakes, if_true]
    exact ⟨h.source_eq, h.answers_eq, by simpa using htokens, h.ended_iff, fun _ => rfl⟩

lemma perform_cases (h : Accounted c f taken) (op : Operation) :
    (∃ fault g, op.perform f = (.failed fault, g) ∧ fault.cause.kind.isLexical = true ∧
      g.source.answers = f.source.answers ++ [.error fault] ∧ g.slot = none ∧
      Accounted c g taken) ∨
    ∃ t g, op.perform f = (op.reply t (TokenSource.span g.source), op.leave t g) ∧ g.Settled t ∧
      Accounted c g taken := by
  rcases settled_or_fresh f with ⟨t, hf⟩ | ⟨hs, he⟩
  · exact .inr ⟨t, f, Operation.perform_of_ok hf.peek op, hf, h⟩
  · rcases hn : f.source.source.scan with ⟨fault | _ | t, s⟩
    · have hp := peek_of_fault hs he (Logged.next_eq hn)
      have hasked := h.ask f.ended hs he hn (by simp [he])
      refine .inl ⟨fault, _, Operation.perform_of_error hp op, Cursor.isLexical_of_scan hn, rfl, hs,
        ?_⟩
      rw [hs]
      exact hasked
    · have hp := peek_of_end hs he (Logged.next_eq hn)
      have hasked := h.ask true hs he hn (by simp)
      refine .inr ⟨none, _, Operation.perform_of_ok hp op, slot_of_peek hp, ?_⟩
      rw [hs]
      exact hasked
    · have hp := peek_of_token hs he (Logged.next_eq hn)
      have hasked := h.ask f.ended hs he hn (by simp [he])
      exact .inr ⟨some t, _, Operation.perform_of_ok hp op, slot_of_peek hp, hasked⟩

lemma perform (h : Accounted c f taken) (op : Operation) :
    Accounted c (op.perform f).2 (taken ++ obtained (op, (op.perform f).1)) := by
  rcases h.perform_cases op with ⟨fault, g, hop, -, -, -, hg⟩ | ⟨t, g, hop, hsettled, hg⟩
  · have hnone : obtained (op, .failed fault) = [] := by cases op <;> rfl
    rw [hop, hnone, List.append_nil]
    exact hg
  · rw [hop]
    exact hg.leave hsettled op

lemma performAll (h : Accounted c f taken) (ops : List Operation) :
    Accounted c (performAll ops f).2 (taken ++ (performAll ops f).1.flatMap obtained) := by
  induction ops generalizing f taken with
  | nil => simpa [Feed.performAll] using h
  | cons op ops ih =>
    have hops := ih (h.perform op)
    rwa [List.append_assoc] at hops

lemma settled_of_ended (h : Accounted c f taken) (hend : .ok none ∈ f.source.answers) :
    f.Settled none := by
  have hended := h.ended_iff.mpr hend
  exact ⟨h.slot_of_ended hended, fun _ => hended⟩

end Accounted

def loggedFeed (s : Text) : Feed (Logged Cursor) :=
  ofSource { source := Cursor.ofText s }

lemma accounted_loggedFeed (s : Text) : Accounted (Cursor.ofText s) (loggedFeed s) [] where
  source_eq := rfl
  answers_eq := rfl
  tokens_eq := rfl
  ended_iff := by simp [loggedFeed, ofSource]
  slot_of_ended _ := rfl

/-- However operations on the feed of a text follow each other, also after failures: they reply as
they do without a log. The log holds the answers of the cursor, call after call, and the tokens in it
are those taken and after them the one in the slot, so the cursor is at most one token ahead. Each
operation meets a fault of the cursor, and then the slot is empty, or it replies to the next token,
which is the last one that the cursor has given, or to none when the cursor has said so; unless it
takes that token, the next `take` returns it. Once the cursor has answered that there is nothing more
it is not asked again, and no token follows. -/
theorem performAll_accounts (s : Text) (ops : List Operation) :
    let history := (performAll ops (loggedFeed s)).1
    let f := (performAll ops (loggedFeed s)).2
    performAll ops (ofSource (Cursor.ofText s)) = (history, f.unlog) ∧
    f.source.answers = (List.range f.source.answers.length).map (Cursor.ofText s).answer ∧
    history.flatMap obtained ++ f.slot.toList = f.source.tokens ∧
    f.source.tokens.length ≤ (history.flatMap obtained).length + 1 ∧
    (∀ op : Operation,
      (∃ fault g, op.perform f = (.failed fault, g) ∧ fault.cause.kind.isLexical = true ∧
        g.source.answers = f.source.answers ++ [.error fault] ∧ g.slot = none) ∨
      ∃ t g, op.perform f = (op.reply t (TokenSource.span g.source), g) ∧
        g.source.tokens = history.flatMap obtained ++ t.toList ∧
        (t = none → .ok none ∈ g.source.answers) ∧
        (op.takes t = false → ∀ later, (performAll later g).1.flatMap obtained = [] →
          (Operation.take.perform (performAll later g).2).1 = .token t)) ∧
    (.ok none ∈ f.source.answers → ∀ later,
      (performAll later f).2.source.answers = f.source.answers ∧
      ∀ op reply, (op, reply) ∈ (performAll later f).1 → op = .peek ∨ op = .take →
        reply = .token none) := by
  intro history f
  have hf : Accounted (Cursor.ofText s) f (history.flatMap obtained) := by
    simpa using (accounted_loggedFeed s).performAll ops
  refine ⟨performAll_unlog ops (loggedFeed s), hf.answers_eq, hf.tokens_eq.symm, ?_, ?_, ?_⟩
  · rw [hf.tokens_eq, List.length_append]
    cases f.slot <;> simp
  · intro op
    rcases hf.perform_cases op with ⟨fault, g, hop, hlexical, hanswers, hslot, -⟩ |
      ⟨t, g, hop, hsettled, hg⟩
    · exact .inl ⟨fault, g, hop, hlexical, hanswers, hslot⟩
    · have hsource : (op.leave t g).source = g.source := op.source_leave t g
      refine .inr ⟨t, op.leave t g, by rw [hop, hsource], ?_, ?_, ?_⟩
      · rw [hsource, hg.tokens_eq, hsettled.1]
      · intro hnone
        rw [hsource, ← hg.ended_iff]
        exact hsettled.2 hnone
      · intro htakes later hlater
        have hleave : op.leave t g = g := by simp [Operation.leave, htakes]
        rw [hleave] at hlater ⊢
        rw [(performAll_of_settled later hsettled (.inr hlater)).1,
          Operation.perform_of_ok hsettled.peek]
        rfl
  · intro hend later
    have hsettled := hf.settled_of_ended hend
    obtain ⟨hfeed, hreplies⟩ := performAll_of_settled later hsettled (.inl rfl)
    refine ⟨by rw [hfeed], ?_⟩
    rintro op reply hmem (rfl | rfl)
    · exact hreplies _ _ hmem
    · exact hreplies _ _ hmem

end Feed

end BraceMarkup
