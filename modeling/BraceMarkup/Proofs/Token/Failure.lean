import BraceMarkup.Proofs.Token.Boundary
import BraceMarkup.Proofs.Token.Position

namespace BraceMarkup

namespace Token

def Unclosed (opening closing : Char) (s : Text) : Prop :=
  ∀ p, p <+: s → opening ∈ p → p.count closing < p.count opening

inductive Endless : Fault.Cause → Text → Prop
  | string {quote : Char} {body : Text} : quote = '"' ∨ quote = '\'' → quote ∉ body →
      Endless .malformedString (quote :: body)
  | html {body : Text} : Unclosed '<' '>' ('<' :: body) → Endless .malformedHtml ('<' :: body)
  | script {body : Text} : Unclosed openBrace closeBrace ('j' :: 's' :: openBrace :: body) →
      Endless .malformedScript ('j' :: 's' :: openBrace :: body)
  | style {body : Text} : Unclosed openBrace closeBrace ('c' :: 's' :: 's' :: openBrace :: body) →
      Endless .malformedStyle ('c' :: 's' :: 's' :: openBrace :: body)

inductive Stray : Char → Text → Prop
  | other {c : Char} (cs : Text) : (∀ x rest, ¬ Skipped (c :: x) rest) →
      (∀ kind x rest, ¬ Lexeme kind (c :: x) rest) → Stray c (c :: cs)
  | slash {cs : Text} : cs.head? ≠ some '*' → cs.head? ≠ some '/' → Stray '/' ('/' :: cs)

/-- What is wrong at the head of the text, and how many of its characters show it. -/
inductive Fails : Fault.Cause → (extent : Int) → Text → Prop
  | endless {cause : Fault.Cause} {s : Text} : Endless cause s → Fails cause s.length s
  | stray {c : Char} {s : Text} : Stray c s → Fails (.invalidCharacter c) 1 s

section Brackets

variable {opening closing : Char}

lemma forall_prefix_cons_iff {c : Char} {cs : Text} {P : Text → Prop} :
    (∀ p, p <+: c :: cs → P p) ↔ P [] ∧ ∀ p, p <+: cs → P (c :: p) := by
  simp only [List.prefix_cons_iff]
  constructor
  · intro h
    exact ⟨h [] (.inl rfl), fun p hp => h (c :: p) (.inr ⟨p, rfl, hp⟩)⟩
  · rintro ⟨hnil, hcons⟩ p (rfl | ⟨q, rfl, hq⟩)
    · exact hnil
    · exact hcons q hq

lemma balanced_eq_none_iff (hne : opening ≠ closing) (depth : Nat) (s : Text) :
    balanced opening closing depth s = none ↔
      ∀ p, p <+: s → p.count closing ≤ depth + p.count opening := by
  induction s generalizing depth with
  | nil => simp [balanced]
  | cons c cs ih =>
    rw [forall_prefix_cons_iff]
    by_cases ho : c = opening
    · subst ho
      rw [balanced_opening, Option.map_eq_none_iff, ih]
      simp [hne, Nat.add_assoc, Nat.add_comm 1]
    by_cases hc : c = closing
    · subst hc
      cases depth with
      | zero =>
        rw [balanced_last hne]
        simp only [reduceCtorEq, false_iff, not_and, not_forall]
        exact fun _ => ⟨[], List.nil_prefix, by simp [hne.symm]⟩
      | succ depth =>
        rw [balanced_closing hne, Option.map_eq_none_iff, ih]
        simp [hne.symm, Nat.add_right_comm depth 1]
    · rw [balanced_other ho hc, Option.map_eq_none_iff, ih]
      simp [ho, hc]

lemma unclosed_cons_of_ne {c : Char} (ho : c ≠ opening) (hc : c ≠ closing) (s : Text) :
    Unclosed opening closing (c :: s) ↔ Unclosed opening closing s := by
  simp [Unclosed, forall_prefix_cons_iff, ho, ho.symm, hc]

lemma unclosed_opening_iff (hne : opening ≠ closing) (s : Text) :
    Unclosed opening closing (opening :: s) ↔ balanced opening closing 0 s = none := by
  simp [balanced_eq_none_iff hne, Unclosed, forall_prefix_cons_iff, hne]

lemma unclosed_append_iff (hne : opening ≠ closing) (x : Text) (ho : opening ∉ x)
    (hc : closing ∉ x) (s : Text) : Unclosed opening closing (x ++ opening :: s) ↔
      balanced opening closing 0 s = none := by
  induction x with
  | nil => exact unclosed_opening_iff hne s
  | cons c x ih =>
    obtain ⟨ho, hox⟩ := List.ne_and_not_mem_of_not_mem_cons ho
    obtain ⟨hc, hcx⟩ := List.ne_and_not_mem_of_not_mem_cons hc
    rw [List.cons_append, unclosed_cons_of_ne ho.symm hc.symm, ih hox hcx]

end Brackets

lemma Skipped.head_mem {c : Char} {x rest : Text} (h : Skipped (c :: x) rest) :
    c ∈ blanks ++ ['/', '\\'] := by
  cases h with
  | blank _ hc => exact List.mem_append_left _ hc
  | escape | lastEscape | line | lastLine | block | lastBlock => simp

lemma Lexeme.head_mem {kind : Kind} {c : Char} {x rest : Text} (h : Lexeme kind (c :: x) rest) :
    c ∈ quotes ++ marks.map Prod.fst ++ ['<'] ∨ isNameStart c = true := by
  cases h with
  | name hc => exact .inr hc
  | string _ hq =>
    have hc : c ∈ quotes := by simpa [quotes] using hq
    exact .inl (by simp [hc])
  | equal | leftBrace | rightBrace | semicolon | html => exact .inl (by simp [marks])
  | script | style => exact .inr (by decide)

namespace Endless

variable {cause : Fault.Cause} {c : Char} {cs : Text}

lemma exists_lexeme (h : Endless cause (c :: cs)) : ∃ kind x rest, Lexeme kind (c :: x) rest := by
  cases h with
  | string hq => exact ⟨.string, [c], [], @Lexeme.string c [] [] hq (by simp)⟩
  | html => exact ⟨.html, ['>'], [], @Lexeme.html [] [] .nil⟩
  | script | style => exact ⟨.name, [], [], .name (by decide) (by simp) ⟨by simp, by simp⟩⟩

end Endless

namespace Reading

def Justified (s : Text) : Reading → Prop
  | .endless cause => Endless cause s
  | .stray c => Stray c s
  | .finished | .skipped _ _ | .token _ _ _ => True

lemma justified_ofString {quote : Char} (hq : quote = '"' ∨ quote = '\'') (cs : Text) :
    (ofString quote cs).Justified (quote :: cs) := by
  rw [ofString]
  split
  · next h =>
    refine .string hq fun hmem => ?_
    simpa using List.dropWhile_eq_nil_iff.mp h quote hmem
  · trivial

lemma justified_ofComment (cs : Text) : (ofComment cs).Justified ('/' :: cs) := by
  rw [ofComment.eq_def]
  split
  · trivial
  · trivial
  · next hstar hslash =>
    refine .slash ?_ ?_
    · intro h
      obtain ⟨ds, rfl⟩ := List.head?_eq_some_iff.mp h
      exact hstar ds rfl
    · intro h
      obtain ⟨ds, rfl⟩ := List.head?_eq_some_iff.mp h
      exact hslash ds rfl

lemma justified_ofMarkup (cs : Text) : (ofMarkup cs).Justified ('<' :: cs) := by
  rw [ofMarkup]
  split
  · next h => exact .html ((unclosed_opening_iff (by decide) cs).mpr h)
  · trivial

lemma justified_ofBlock {kind : Kind} {name : Text} (hk : embeddedKind? name = some kind)
    (cs : Text) : (ofBlock kind name cs).Justified (name ++ openBrace :: cs) := by
  rw [ofBlock]
  split
  · next h =>
    have hne : openBrace ≠ closeBrace := by decide
    rcases embeddedKind?_eq_some hk with ⟨rfl, rfl⟩ | ⟨rfl, rfl⟩
    · exact .script ((unclosed_append_iff hne ['j', 's'] (by decide) (by decide) cs).mpr h)
    · exact .style ((unclosed_append_iff hne ['c', 's', 's'] (by decide) (by decide) cs).mpr h)
  · trivial

lemma justified_ofName (name rest : Text) : (ofName name rest).Justified (name ++ rest) := by
  rw [ofName.eq_def]
  split
  · next kind c cs hk =>
    split
    · next hc => exact hc ▸ justified_ofBlock hk cs
    · trivial
  · trivial

lemma justified_first (s : Text) : (first s).Justified s := by
  cases s with
  | nil => trivial
  | cons c cs =>
    rw [first]
    split
    · trivial
    next hblank =>
    split
    · next hc => exact justified_ofString (by simpa [quotes] using hc) cs
    next hquote =>
    split
    · trivial
    next hmark =>
    split
    · next hc => exact hc ▸ justified_ofComment cs
    next hslash =>
    split
    · next hc => exact hc ▸ justified_ofMarkup cs
    next hopen =>
    split
    · next hc => cases cs <;> trivial
    next hescape =>
    split
    · have h := justified_ofName (c :: cs.takeWhile isNameChar) (cs.dropWhile isNameChar)
      rwa [List.cons_append, List.takeWhile_append_dropWhile] at h
    · next hname =>
      refine .other cs (fun x rest h => ?_) fun kind x rest h => ?_
      · simpa [hblank, hslash, hescape] using h.head_mem
      · have hmark : c ∉ marks.map Prod.fst := by
          rintro h
          obtain ⟨p, hp, rfl⟩ := List.mem_map.mp h
          simpa using List.lookup_eq_none_iff.mp hmark p hp
        simpa [hquote, hmark, hopen, hname] using h.head_mem

lemma first_of_endless {cause : Fault.Cause} {s : Text} (h : Endless cause s) :
    first s = .endless cause := by
  cases h with
  | @string quote body hq hb =>
    have hf : first (quote :: body) = ofString quote body := by
      rcases hq with rfl | rfl <;> rfl
    have hnil : body.dropWhile (· != quote) = [] := by
      refine List.dropWhile_eq_nil_iff.mpr fun c hc => ?_
      simpa using fun h : c = quote => hb (h ▸ hc)
    rw [hf, ofString, hnil]
  | @html body hb =>
    have hnone := (unclosed_opening_iff (by decide) body).mp hb
    show ofMarkup body = _
    rw [ofMarkup, hnone]
  | @script body hb =>
    have hnone := (unclosed_append_iff (by decide) ['j', 's'] (by decide) (by decide) body).mp hb
    show ofBlock .script ['j', 's'] body = _
    rw [ofBlock, hnone]
    rfl
  | @style body hb =>
    have hnone :=
      (unclosed_append_iff (by decide) ['c', 's', 's'] (by decide) (by decide) body).mp hb
    show ofBlock .style ['c', 's', 's'] body = _
    rw [ofBlock, hnone]
    rfl

lemma first_of_stray {c : Char} {s : Text} (h : Stray c s) : first s = .stray c := by
  cases h with
  | other cs hskipped hlexeme =>
    have hj := justified_first (c :: cs)
    cases hr : first (c :: cs) with
    | finished => simp [first_eq_finished_iff] at hr
    | skipped x rest =>
      obtain ⟨hs, hx⟩ := first_eq_skipped_iff.mp hr
      obtain ⟨d, y, rfl⟩ := List.exists_cons_of_ne_nil hx.ne_nil
      obtain ⟨rfl, _⟩ := List.cons.inj hs
      exact (hskipped y rest hx).elim
    | token kind x rest =>
      obtain ⟨hs, hx⟩ := first_eq_token_iff.mp hr
      obtain ⟨d, y, rfl⟩ := List.exists_cons_of_ne_nil hx.ne_nil
      obtain ⟨rfl, _⟩ := List.cons.inj hs
      exact (hlexeme kind y rest hx).elim
    | endless cause =>
      rw [hr] at hj
      obtain ⟨kind, x, rest, hx⟩ := Endless.exists_lexeme hj
      exact (hlexeme kind x rest hx).elim
    | stray d =>
      rw [hr] at hj
      cases hj <;> rfl
  | @slash cs hstar hslash =>
    show ofComment cs = _
    rw [ofComment.eq_def]
    split
    · simp at hstar
    · simp at hslash
    · rfl

lemma first_eq_endless_iff {cause : Fault.Cause} {s : Text} :
    first s = .endless cause ↔ Endless cause s := by
  refine ⟨fun h => ?_, first_of_endless⟩
  have hj := justified_first s
  rwa [h] at hj

lemma first_eq_stray_iff {c : Char} {s : Text} : first s = .stray c ↔ Stray c s := by
  refine ⟨fun h => ?_, first_of_stray⟩
  have hj := justified_first s
  rwa [h] at hj

end Reading

lemma Fails.ne_nil {cause : Fault.Cause} {n : Int} {s : Text} (h : Fails cause n s) : s ≠ [] := by
  cases h with
  | endless h => cases h <;> simp
  | stray h => cases h <;> simp

end Token

lemma Span.Located.eq_of_extent {s : Text} {p q : Span} (hp : p.Located s) (hq : q.Located s)
    (hidx : p.idx = q.idx) (hlength : p.length = q.length) : p = q := by
  have hfirst : p.first = q.first := by rw [hp.first_eq, hq.first_eq, hidx]
  have hlast : p.last = q.last := by rw [hp.last_eq, hq.last_eq, stop, stop, hidx, hlength]
  cases p
  cases q
  simp_all

namespace Cursor

open Token

variable {c : Cursor} {fault : Fault}

lemma drain_of_fails {s before : Text} {cause : Fault.Cause} {n : Int} (hc : c.StandsIn s before)
    (hheld : c.held = []) (h : Fails cause n c.rest) :
    ∃ fault, c.drain.tokens = [] ∧ c.drain.fault = some fault ∧ c.drain.cursor.span = fault.span ∧
      fault.cause = cause ∧ fault.span.idx = c.idx ∧ fault.span.length = n ∧
      fault.span.Located s := by
  have hne := h.ne_nil
  generalize hr : c.rest = r at h
  cases h with
  | endless h =>
    subst hr
    have hscan := scan_of_endless (Reading.first_of_endless h)
    obtain ⟨hloc, _, _⟩ := hc.located_spanOver (List.append_nil c.rest).symm hne
    refine ⟨⟨cause, c.spanOver c.rest⟩, ?_⟩
    rw [drain_eq, hscan]
    refine ⟨rfl, rfl, rfl, rfl, rfl, ?_, hloc⟩
    have hpos := List.length_pos_iff.mpr hne
    simp only [spanOver, Span.reaching, hheld, List.nil_append, List.length_dropLast]
    omega
  | @stray d _ h =>
    subst hr
    have hscan := scan_of_stray (Reading.first_of_stray h)
    obtain ⟨hloc, _, _⟩ := hc.located_span
    refine ⟨⟨.invalidCharacter d, c.span⟩, ?_⟩
    rw [drain_eq, hscan]
    refine ⟨rfl, rfl, rfl, rfl, rfl, ?_, hloc⟩
    simp [span, Span.reaching, hheld]

lemma exists_fails_of_stops {s : Text} (h : (Reading.first s).Stops) (hs : s ≠ []) :
    ∃ cause n, Fails cause n s := by
  cases hr : Reading.first s with
  | finished => exact (hs (Reading.first_eq_finished_iff.mp hr)).elim
  | endless cause => exact ⟨_, _, .endless (Reading.first_eq_endless_iff.mp hr)⟩
  | stray d => exact ⟨_, _, .stray (Reading.first_eq_stray_iff.mp hr)⟩
  | skipped x rest => simp [hr, Reading.Stops] at h
  | token kind x rest => simp [hr, Reading.Stops] at h

lemma drain_ofText_of_fails {ps : List Piece} {r : Text} {cause : Fault.Cause} {n : Int}
    (hps : Fitting ps r) (h : Fails cause n r) :
    ∃ fault, (ofText (joined ps ++ r)).drain.tokens = located 0 {} ps ∧
      (ofText (joined ps ++ r)).drain.fault = some fault ∧
      (ofText (joined ps ++ r)).drain.cursor.span = fault.span ∧ fault.cause = cause ∧
      fault.span.idx = (joined ps).length ∧ fault.span.length = n ∧
      fault.span.Located (joined ps ++ r) := by
  have hstands : ((ofText (joined ps ++ r)).past (joined ps) r).StandsIn (joined ps ++ r)
      (joined ps) := (standsIn_ofText _).past rfl
  obtain ⟨fault, htokens, hfault, hcursor, hcause, hidx, hlength, hloc⟩ :=
    drain_of_fails hstands rfl h
  refine ⟨fault, ?_⟩
  rw [@drain_of_fitting (ofText (joined ps ++ r)) ps r rfl hps rfl, htokens]
  refine ⟨List.append_nil _, hfault, hcursor, hcause, ?_, hlength, hloc⟩
  simpa [Cursor.past, ofText] using hidx

lemma exists_fails_of_fault {s : Text} (h : (ofText s).drain.fault = some fault) :
    ∃ ps r, s = joined ps ++ r ∧ Fitting ps r ∧ ∃ cause n, Fails cause n r := by
  obtain ⟨ps, r, hs, hps, hstops, _⟩ := exists_pieces_ofText s
  refine ⟨ps, r, hs, hps, exists_fails_of_stops hstops ?_⟩
  rintro rfl
  rw [List.append_nil] at hs
  rw [hs, drain_ofText_of_fitting hps] at h
  cases h

lemma drain_joined_of_fails {ps : List Piece} {r : Text} {cause : Fault.Cause} {n : Int}
    (hps : Fitting ps r) (h : Fails cause n r) :
    (ofText (joined ps)).drain.fault = none ∧
      (ofText (joined ps)).drain.tokens = located 0 {} ps := by
  have halone : Fitting ps [] := hps.of_breaks breaks_nil fun hr => (h.ne_nil hr).elim
  rw [drain_ofText_of_fitting halone]
  exact ⟨rfl, rfl⟩

lemma idx_le_of_fault {s a rest : Text} {ws : List Word} (hs : s = a ++ rest)
    (ha : Lexes a ws rest) (h : (ofText s).drain.fault = some fault) :
    rest ≠ [] ∧ a.length ≤ fault.span.idx := by
  obtain ⟨ps, hps, rfl, _⟩ := ha
  obtain ⟨qs, r, rfl, hqs, hstops⟩ := exists_fitting rest
  have hall : Fitting (ps ++ qs) r := fitting_append.mpr ⟨hps, hqs⟩
  have hr : r ≠ [] := by
    rintro rfl
    have hs : s = joined (ps ++ qs) := by simpa using hs
    rw [hs, drain_ofText_of_fitting hall] at h
    cases h
  obtain ⟨cause, n, hfails⟩ := exists_fails_of_stops hstops hr
  obtain ⟨fault', _, hfault, _, _, hidx, _⟩ := drain_ofText_of_fails hall hfails
  have hs : s = joined (ps ++ qs) ++ r := by simpa using hs
  obtain rfl : fault = fault' := Option.some.inj (h.symm.trans (hs ▸ hfault))
  refine ⟨by simp [hr], ?_⟩
  rw [hidx, joined_append, List.length_append]
  omega

/-- Reading a text fails exactly when pieces of it are followed by a string, a bracket or a block
without an end, or by a character that starts nothing. The tokens before the fault are those of the
pieces, and the fault covers all that has no end, or that character, with the cursor on the same
span. What is skipped never fails, and the fault is always behind it. -/
theorem drain_ofText_fault_iff_fails (s : Text) :
    (∀ ts fault, (ofText s).drain.tokens = ts ∧ (ofText s).drain.fault = some fault ↔
      ∃ a r, s = a ++ r ∧ Lexes a (ts.map word) r ∧ (ofText a).drain.fault = none ∧
        (ofText a).drain.tokens = ts ∧ Fails fault.cause fault.span.length r ∧
        fault.span.idx = a.length ∧ fault.span.Located s) ∧
    (∀ fault, (ofText s).drain.fault = some fault →
      (ofText s).drain.cursor.span = fault.span) ∧
    ∀ a x rest ws fault, s = a ++ (x ++ rest) → Lexes a ws (x ++ rest) → Skipped x rest →
      (ofText s).drain.fault = some fault → rest ≠ [] ∧ (a ++ x).length ≤ fault.span.idx := by
  refine ⟨fun ts fault => ⟨?_, ?_⟩, ?_, ?_⟩
  · rintro ⟨rfl, hfault⟩
    obtain ⟨ps, r, rfl, hps, cause, n, hfails⟩ := exists_fails_of_fault hfault
    obtain ⟨fault', htokens, hfault', _, rfl, hidx, rfl, hloc⟩ := drain_ofText_of_fails hps hfails
    obtain rfl : fault = fault' := Option.some.inj (hfault.symm.trans hfault')
    obtain ⟨hnone, halone⟩ := drain_joined_of_fails hps hfails
    rw [htokens]
    have hlexes : Lexes (joined ps) ((located 0 {} ps).map word) r :=
      ⟨ps, hps, rfl, (map_word_located 0 {} ps).symm⟩
    exact ⟨joined ps, r, rfl, hlexes, hnone, halone, hfails, hidx, hloc⟩
  · rintro ⟨_, r, rfl, ⟨ps, hps, rfl, _⟩, _, rfl, hfails, hidx, hloc⟩
    obtain ⟨fault', htokens, hfault', _, hcause, hidx', hlength, hloc'⟩ :=
      drain_ofText_of_fails hps hfails
    have hspan : fault'.span = fault.span := hloc'.eq_of_extent hloc (hidx'.trans hidx.symm) hlength
    rw [htokens, hfault', (drain_joined_of_fails hps hfails).2]
    exact ⟨rfl, congrArg some (by cases fault; cases fault'; simp_all)⟩
  · intro fault hfault
    obtain ⟨ps, r, rfl, hps, cause, n, hfails⟩ := exists_fails_of_fault hfault
    obtain ⟨fault', _, hfault', hcursor, _⟩ := drain_ofText_of_fails hps hfails
    obtain rfl : fault = fault' := Option.some.inj (hfault.symm.trans hfault')
    exact hcursor
  · intro a x rest ws fault hs ha hx hfault
    have hax : Lexes (a ++ x) ws rest := by simpa using ha.append (.skipped hx)
    exact idx_le_of_fault (by simpa using hs) hax hfault

end Cursor

end BraceMarkup
