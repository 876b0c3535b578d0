import BraceMarkup.Proofs.Element.Locality
import BraceMarkup.Proofs.Token.Lockstep
import BraceMarkup.Proofs.Token.Position

/-! Tokens read on demand. Building elements while the source is being read gives what building them
from the list of all its tokens gives, and the source is read no further than the building needs. -/

namespace BraceMarkup

open Feed

namespace Grammar

variable {σ τ : Type} [TokenSource σ] [TokenSource τ] {P : Pairing σ τ} (hP : P.Lawful)
  {X : Building σ (Option (Element Span))} {Y : Building τ (Option (Element Span))}
include hP

lemma lockstep_tagAttribute :
    Lockstep P (tagAttribute : Building σ _) (tagAttribute : Building τ _) := by
  refine (hP.expect _ _).bind fun name => (hP.isNext _).bind fun valued => ?_
  cases valued with
  | true => exact hP.take.discard.bind fun _ => (hP.expect _ _).bind fun _ => .pure _
  | false => exact .pure _

lemma lockstep_tagAttribute? :
    Lockstep P (tagAttribute? : Building σ _) (tagAttribute? : Building τ _) := by
  refine (hP.isNext _).bind fun named => ?_
  cases named with
  | true => exact (lockstep_tagAttribute hP).bind fun _ => .pure _
  | false => exact .pure none

lemma lockstep_required (h : Lockstep P X Y) : Lockstep P (required X) (required Y) := by
  refine h.bind fun e => ?_
  cases e with
  | some e => exact .pure e
  | none => exact hP.reject rfl

lemma lockstep_child? (h : Lockstep P X Y) : Lockstep P (child? X) (child? Y) := by
  refine (hP.isNext _).bind fun closing => ?_
  cases closing with
  | true => exact .pure none
  | false => exact (lockstep_required hP h).bind fun _ => .pure _

lemma lockstep_body (h : Lockstep P X Y) : Lockstep P (body X) (body Y) := by
  refine (hP.isNext _).bind fun semicolon => ?_
  cases semicolon with
  | true => exact hP.take.discard.bind fun _ => .pure []
  | false =>
    refine (hP.isNext _).bind fun brace => ?_
    cases brace with
    | true =>
      refine hP.take.discard.bind fun _ => (hP.many (lockstep_child? hP h)).bind fun es => ?_
      exact hP.take.discard.bind fun _ => .pure es
    | false =>
      refine (lockstep_required hP h).bind fun e => (hP.isNext _).bind fun semicolon => ?_
      cases semicolon with
      | true => exact hP.take.discard.bind fun _ => .pure [e]
      | false => exact .pure [e]

lemma lockstep_tag (h : Lockstep P X Y) : Lockstep P (tag X) (tag Y) := by
  refine (hP.expect _ _).bind fun name => (hP.many (lockstep_tagAttribute? hP)).bind fun as => ?_
  exact (lockstep_body hP h).bind fun es => .pure _

lemma lockstep_elementOver (h : Lockstep P X Y) : Lockstep P (elementOver X) (elementOver Y) := by
  refine hP.peek.bind fun t => ?_
  cases t with
  | none => exact .pure none
  | some t =>
    dsimp only
    cases t.kind with
    | name => exact (lockstep_tag hP h).bind fun _ => .pure _
    | string | html | script | style => exact hP.take.discard.bind fun _ => .pure _
    | equal | leftBrace | rightBrace | semicolon => exact .pure none

lemma lockstep_element (limit : Nat) :
    Lockstep P (element limit : Building σ _) (element limit : Building τ _) := by
  induction limit with
  | zero => exact hP.reject rfl
  | succ limit ih => exact lockstep_elementOver hP ih

lemma lockstep_documentOf (h : Lockstep P X Y) : Lockstep P (documentOf X) (documentOf Y) := by
  refine (hP.many h).bind fun es => hP.peek.bind fun t => ?_
  cases t with
  | none => exact .pure es
  | some t => exact hP.reject rfl

lemma lockstep_document (limit : Nat) :
    Lockstep P (document limit : Building σ _) (document limit : Building τ _) :=
  lockstep_documentOf hP (lockstep_element hP limit)

end Grammar

section Recordings

variable {c d : Cursor} {t : Token} {fault : Fault}

lemma ofCursor_of_token (h : c.scan = (.ok (some t), d)) :
    Recording.ofCursor c =
      ⟨t :: (Recording.ofCursor d).tokens, (Recording.ofCursor d).ending⟩ := by
  simp [Recording.ofCursor, Cursor.drain_eq c, h]

lemma ofCursor_of_fault (h : c.scan = (.error fault, d)) :
    Recording.ofCursor c = ⟨[], .error fault⟩ := by
  simp [Recording.ofCursor, Cursor.drain_eq c, h]

lemma ofCursor_of_end (h : c.scan = (.ok none, d)) :
    Recording.ofCursor c = ⟨[], .ok d.span⟩ ∧ Recording.ofCursor d = ⟨[], .ok d.span⟩ := by
  have hd : d.rest = [] := Cursor.rest_of_scan h
  constructor
  · simp [Recording.ofCursor, Cursor.drain_eq c, h]
  · simp [Recording.ofCursor, Cursor.drain_of_rest_nil hd]

lemma isLexical_of_ending {s : Text} (h : (Recording.ofCursor (.ofText s)).ending = .error fault) :
    fault.cause.kind.isLexical = true := by
  obtain ⟨ps, r, _, _, _, hend⟩ := exists_pieces_ofCursor s
  rw [h] at hend
  exact hend.2

end Recordings

structure Live (r : Recording) (f : Feed Cursor) (g : Feed Recording) : Prop extends Alike f g where
  source_eq : g.source = Recording.ofCursor f.source
  tokens_eq : ∃ w, r.tokens = w ++ (f.slot.toList ++ g.source.tokens)
  ending_eq : g.source.ending = r.ending
  behind : ∀ t, f.slot = some t → f.source.idx = t.span.stop ∧ f.source.held = []
  at_end : f.ended = true → r.ending = .ok f.source.span

def live (r : Recording) : Pairing Cursor Recording where
  going := Live r
  failed fault _ _ := r.ending = .error fault
  excused _ := False

lemma lawful_live (r : Recording) : (live r).Lawful where
  alike h := h.toAlike
  span_eq {f g} h he := by
    have hend : g.source.ending = .ok f.source.span := h.ending_eq.trans (h.at_end he)
    simp only [TokenSource.span, hend]
  drop {f g} h := by
    obtain ⟨w, hw⟩ := h.tokens_eq
    exact
      { slot_eq := rfl
        ended_eq := h.ended_eq
        bound_eq := h.bound_eq
        source_eq := h.source_eq
        tokens_eq := ⟨w ++ f.slot.toList, by simpa using hw⟩
        ending_eq := h.ending_eq
        behind := nofun
        at_end := h.at_end }
  ask {f g} h hs he := by
    obtain ⟨w, hw⟩ := h.tokens_eq
    have hs' : g.slot = none := h.slot_eq.trans hs
    have he' : g.ended = false := h.ended_eq.trans he
    have hsource := h.source_eq
    have hending := h.ending_eq
    rcases hn : f.source.scan with ⟨fault | _ | t, d⟩
    · rw [ofCursor_of_fault hn] at hsource
      have hn' : TokenSource.next g.source = (.error fault, g.source) := by rw [hsource]; rfl
      rw [peek_of_fault hs he hn, peek_of_fault hs' he' hn']
      exact .failed (by rw [live, ← hending, hsource])
    · obtain ⟨hc, hd⟩ := ofCursor_of_end hn
      rw [hc] at hsource
      have hn' : TokenSource.next g.source = (.ok none, g.source) := by rw [hsource]; rfl
      rw [peek_of_end hs he hn, peek_of_end hs' he' hn']
      exact .ok
        { slot_eq := h.slot_eq
          ended_eq := rfl
          bound_eq := h.bound_eq
          source_eq := hsource.trans hd.symm
          tokens_eq := h.tokens_eq
          ending_eq := hending
          behind := by simp [hs]
          at_end := fun _ => by rw [← hending, hsource] }
    · rw [ofCursor_of_token hn] at hsource
      have hn' : TokenSource.next g.source = (.ok (some t), Recording.ofCursor d) := by
        rw [hsource]
        rfl
      rw [peek_of_token hs he hn, peek_of_token hs' he' hn']
      exact .ok
        { slot_eq := rfl
          ended_eq := h.ended_eq
          bound_eq := h.bound_eq
          source_eq := rfl
          tokens_eq := ⟨w, by simpa [hs, hsource] using hw⟩
          ending_eq := by rw [← hending, hsource]
          behind := by
            rintro t ⟨⟩
            exact Cursor.behind_of_scan hn
          at_end := by simp [he] }

structure Cut (marker : Fault) (rest : List Token) (ending : Ending) (f g : Feed Recording) : Prop
    extends Alike f g where
  ending_eq : f.source.ending = .error marker
  source_eq : g.source = ⟨f.source.tokens ++ rest, ending⟩
  not_ended : f.ended = false

def cut (marker : Fault) (rest : List Token) (ending : Ending) : Pairing Recording Recording where
  going := Cut marker rest ending
  failed _ _ _ := False
  excused fault := fault = marker

lemma lawful_cut (marker : Fault) (rest : List Token) (ending : Ending) :
    (cut marker rest ending).Lawful where
  alike h := h.toAlike
  span_eq {f g} h he := by simp [h.not_ended] at he
  drop {f g} h :=
    { slot_eq := rfl
      ended_eq := h.ended_eq
      bound_eq := h.bound_eq
      ending_eq := h.ending_eq
      source_eq := h.source_eq
      not_ended := h.not_ended }
  ask {f g} h hs he := by
    have hs' : g.slot = none := h.slot_eq.trans hs
    have he' : g.ended = false := h.ended_eq.trans he
    obtain ⟨⟨tokens, e⟩, slot, ended, bound⟩ := f
    obtain rfl : e = .error marker := h.ending_eq
    cases tokens with
    | nil =>
      rw [peek_of_fault (s := ⟨[], .error marker⟩) hs he rfl]
      exact .excused rfl
    | cons t ts =>
      have hn' : TokenSource.next g.source = (.ok (some t), ⟨ts ++ rest, ending⟩) := by
        rw [h.source_eq]
        rfl
      rw [peek_of_token (s := ⟨ts, .error marker⟩) hs he rfl, peek_of_token hs' he' hn']
      exact .ok ⟨⟨rfl, h.ended_eq, h.bound_eq⟩, rfl, rfl, he⟩

structure Watched where
  recording : Recording
  overrun : Bool := false

instance : TokenSource Watched where
  next w :=
    ((TokenSource.next w.recording).1,
      ⟨(TokenSource.next w.recording).2, w.overrun || w.recording.tokens.isEmpty⟩)
  span w := TokenSource.span w.recording
  remaining w := TokenSource.remaining w.recording

structure Watches (ending : Ending) (f : Feed Recording) (g : Feed Watched) : Prop
    extends Alike f g where
  source_eq : g.source.recording = f.source
  ending_eq : f.source.ending = ending
  overrun : g.source.overrun = true → ∃ span, ending = .ok span

def watching (ending : Ending) : Pairing Recording Watched where
  going := Watches ending
  failed fault _ g := ending = .error fault ∧ g.source.overrun = true
  excused _ := False

lemma lawful_watching (ending : Ending) : (watching ending).Lawful where
  alike h := h.toAlike
  span_eq {f g} h _ := by simp only [← h.source_eq]; rfl
  drop {f g} h :=
    { slot_eq := rfl
      ended_eq := h.ended_eq
      bound_eq := h.bound_eq
      source_eq := h.source_eq
      ending_eq := h.ending_eq
      overrun := h.overrun }
  ask {f g} h hs he := by
    have hs' : g.slot = none := h.slot_eq.trans hs
    have he' : g.ended = false := h.ended_eq.trans he
    obtain ⟨⟨tokens, e⟩, slot, ended, bound⟩ := f
    obtain ⟨⟨recording, overrun⟩, slot', ended', bound'⟩ := g
    obtain rfl : recording = ⟨tokens, e⟩ := h.source_eq
    obtain rfl : e = ending := h.ending_eq
    cases tokens with
    | nil =>
      cases e with
      | error fault =>
        have hn : TokenSource.next (⟨⟨[], .error fault⟩, overrun⟩ : Watched) =
            (.error fault, ⟨⟨[], .error fault⟩, true⟩) := by simp [TokenSource.next]
        rw [peek_of_fault (s := ⟨[], .error fault⟩) hs he rfl, peek_of_fault hs' he' hn]
        exact .failed ⟨rfl, rfl⟩
      | ok span =>
        have hn : TokenSource.next (⟨⟨[], .ok span⟩, overrun⟩ : Watched) =
            (.ok none, ⟨⟨[], .ok span⟩, true⟩) := by simp [TokenSource.next]
        rw [peek_of_end (s := ⟨[], .ok span⟩) hs he rfl, peek_of_end hs' he' hn]
        exact .ok ⟨⟨h.slot_eq, rfl, h.bound_eq⟩, rfl, rfl, fun _ => ⟨span, rfl⟩⟩
    | cons t ts =>
      have hn : TokenSource.next (⟨⟨t :: ts, e⟩, overrun⟩ : Watched) =
          (.ok (some t), ⟨⟨ts, e⟩, overrun⟩) := by simp [TokenSource.next]
      rw [peek_of_token (s := ⟨ts, e⟩) hs he rfl, peek_of_token hs' he' hn]
      exact .ok ⟨⟨rfl, h.ended_eq, h.bound_eq⟩, rfl, rfl, h.overrun⟩

/-- Building elements from the recording asks for a token behind its last one. -/
def Overruns (limit : Nat) (r : Recording) : Prop :=
  match Grammar.document limit (ofSource (⟨r, false⟩ : Watched)) with
  | .ok _ f | .error _ f => f.source.overrun = true

namespace Grammar

lemma exists_runs_document {σ : Type} [TokenSource σ] (limit : Nat) (ts : List Token)
    (ending : Ending) : ∃ o, Runs (document limit : Building σ _) ts ending o := by
  cases outcome_document (σ := σ) limit ts ending with
  | accepted w rest es hts _ h => exact ⟨_, hts ▸ h rest ending (.refl rest ending)⟩
  | refused w rest cause hts _ _ h => exact ⟨_, hts ▸ h rest ending (.refl rest ending)⟩
  | tooDeep fault _ h => exact ⟨_, h⟩

lemma outcome_of_bound (limit : Nat) (r : Recording) {n : Nat} (hn : r.tokens.length < n) :
    outcome (document limit) { source := r, bound := n } = evaluate (document limit) r := by
  obtain ⟨o, ho⟩ := exists_runs_document (σ := Recording) limit r.tokens r.ending
  have hr := supplies_recording r.tokens r.ending
  have hf : Offers { source := r, bound := n } r.tokens r.ending := .fresh rfl rfl hr
  rw [outcome_of_offers hf hn ho]
  exact (evaluate_recording ho).symm

end Grammar

open Grammar

variable {limit : Nat} {s : Text}

lemma agree_live (limit : Nat) (s : Text) :
    Agree (live (Recording.ofCursor (.ofText s))) (document limit (ofSource (Cursor.ofText s)))
      (document limit { source := Recording.ofCursor (.ofText s), bound := s.length + 1 }) := by
  refine lockstep_document (lawful_live _) limit _ _ ?_
  exact
    { slot_eq := rfl
      ended_eq := rfl
      bound_eq := rfl
      source_eq := rfl
      tokens_eq := ⟨[], rfl⟩
      ending_eq := rfl
      behind := nofun
      at_end := nofun }

lemma parseWithin_eq_evaluate (limit : Nat) (s : Text) :
    parseWithin limit s = evaluate (document limit) (Recording.ofCursor (.ofText s)) := by
  have hlen : (Recording.ofCursor (.ofText s)).tokens.length < s.length + 1 :=
    Nat.lt_succ_of_le (length_ofCursor (.ofText s))
  rw [← outcome_of_bound limit _ hlen]
  exact ((agree_live limit s).outcome_eq fun _ _ => id).symm

lemma evaluate_of_cut {w rest : List Token} {ending : Ending} {marker fault : Fault}
    (h : evaluate (document limit) (⟨w, .error marker⟩ : Recording) = .error fault)
    (hne : fault ≠ marker) :
    evaluate (document limit) (⟨w ++ rest, ending⟩ : Recording) = .error fault := by
  have hlen : w.length < (w ++ rest).length + 1 := by
    rw [List.length_append]
    omega
  have hcut : outcome (document limit)
      { source := (⟨w, .error marker⟩ : Recording), bound := (w ++ rest).length + 1 } =
        .error fault := (outcome_of_bound limit ⟨w, .error marker⟩ hlen).trans h
  have hagree := lockstep_document (lawful_cut marker rest ending) limit
    { source := ⟨w, .error marker⟩, bound := (w ++ rest).length + 1 }
    { source := ⟨w ++ rest, ending⟩, bound := (w ++ rest).length + 1 }
    ⟨⟨rfl, rfl, rfl⟩, rfl, rfl, rfl⟩
  rw [← hcut]
  refine hagree.outcome_eq fun fault' hf => ?_
  rintro rfl
  exact hne (Except.error.inj (hcut.symm.trans hf))

lemma evaluate_eq_error_iff (limit : Nat) {r : Recording} (fault : Fault)
    (hr : ∀ e, r.ending = .error e → e.cause.kind.isLexical = true) :
    (evaluate (document limit) r = .error fault ∧ fault.cause.kind.isLexical = true) ↔
      r.ending = .error fault ∧ Overruns limit r := by
  have hagree := lockstep_document (lawful_watching r.ending) limit (ofSource r)
    (ofSource (⟨r, false⟩ : Watched)) ⟨⟨rfl, rfl, rfl⟩, rfl, rfl, nofun⟩
  generalize hx : document limit (ofSource r) = x at hagree
  generalize hy : document limit (ofSource (⟨r, false⟩ : Watched)) = y at hagree
  have hover {g : Feed Watched} (h : g.source.overrun = true → ∃ span, r.ending = .ok span)
      (hg : r.ending = .error fault ∧ g.source.overrun = true) : False := by
    obtain ⟨span, hspan⟩ := h hg.2
    simp [hspan] at hg
  cases hagree with
  | ok h =>
    simp only [evaluate, Overruns, hx, hy, reduceCtorEq, false_and, false_iff]
    exact hover h.overrun
  | @refused fault' f g h hc _ =>
    simp only [evaluate, Overruns, hx, hy, Except.error.injEq]
    constructor
    · rintro ⟨rfl, hlex⟩
      simp [hc] at hlex
    · exact fun hg => (hover h.overrun hg).elim
  | @failed fault' f g h =>
    simp only [evaluate, Overruns, hx, hy, Except.error.injEq]
    constructor
    · rintro ⟨rfl, _⟩
      exact h
    · rintro ⟨hend, _⟩
      obtain rfl := Except.error.inj (h.1.symm.trans hend)
      exact ⟨rfl, hr _ hend⟩
  | excused h => exact h.elim

lemma source_of_refusal {fault : Fault} {f : Feed Cursor}
    (h : document limit (ofSource (Cursor.ofText s)) = .error fault f)
    (hc : fault.cause.kind.isLexical = false) :
    (∃ w t rest, (Recording.ofCursor (.ofText s)).tokens = w ++ t :: rest ∧ fault.span = t.span ∧
      f.source.span.idx = t.span.stop ∧ f.source.span.length = 1) ∨
    (Recording.ofCursor (.ofText s)).ending = .ok fault.span ∧ f.source.span = fault.span := by
  have hagree := agree_live limit s
  rw [h] at hagree
  generalize document limit (σ := Recording) _ = y at hagree
  cases hagree with
  | refused hlive _ hshows =>
    rcases hshows with ⟨t, hslot, hspan⟩ | ⟨_, hended, hspan⟩
    · obtain ⟨w, hw⟩ := hlive.tokens_eq
      obtain ⟨hidx, hheld⟩ := hlive.behind t hslot
      refine .inl ⟨w, t, _, by simpa [hslot] using hw, hspan, hidx, ?_⟩
      simp [Cursor.span, Span.reaching, hheld]
    · exact .inr ⟨hspan ▸ hlive.at_end hended, hspan.symm⟩
  | failed hend => simp [isLexical_of_ending hend] at hc
  | excused h => exact h.elim

/-- Building elements on demand has the outcome of building them from all tokens of the text, read
beforehand. A fault met while reading is the outcome exactly when a token behind the last one is
asked for. What the first tokens alone decide is decided whatever follows them, a fault included.
When something is refused, the text has been read up to the end of the token that shows it and no
further, or else to its end. -/
theorem parseWithin_on_demand (limit : Nat) (s : Text) :
    parseWithin limit s = evaluate (document limit) (Recording.ofCursor (.ofText s)) ∧
    (∀ fault, (parseWithin limit s = .error fault ∧ fault.cause.kind.isLexical = true) ↔
      (Recording.ofCursor (.ofText s)).ending = .error fault ∧
        Overruns limit (Recording.ofCursor (.ofText s))) ∧
    (∀ w rest marker fault, (Recording.ofCursor (.ofText s)).tokens = w ++ rest →
      evaluate (document limit) (⟨w, .error marker⟩ : Recording) = .error fault →
      fault ≠ marker → parseWithin limit s = .error fault) ∧
    (∀ fault f, document limit (ofSource (Cursor.ofText s)) = .error fault f →
      fault.cause.kind.isLexical = false →
      (∃ w t rest, (Recording.ofCursor (.ofText s)).tokens = w ++ t :: rest ∧
        fault.span = t.span ∧ f.source.span.idx = t.span.stop ∧ f.source.span.length = 1) ∨
      (Recording.ofCursor (.ofText s)).ending = .ok fault.span ∧
        f.source.span = fault.span) := by
  refine ⟨parseWithin_eq_evaluate limit s, ?_, ?_, fun _ _ => source_of_refusal⟩
  · intro fault
    rw [parseWithin_eq_evaluate]
    exact evaluate_eq_error_iff limit fault fun _ => isLexical_of_ending
  · intro w rest marker fault htokens h hne
    have hcut := @evaluate_of_cut limit w rest (Recording.ofCursor (.ofText s)).ending _ _ h hne
    rw [← htokens] at hcut
    rw [parseWithin_eq_evaluate]
    exact hcut

end BraceMarkup
