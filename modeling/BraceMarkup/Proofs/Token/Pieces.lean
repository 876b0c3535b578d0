import BraceMarkup.Proofs.Token.Lexical

namespace BraceMarkup

namespace Token

abbrev Word := Kind × Text

def word (t : Token) : Word :=
  (t.kind, t.lexeme)

inductive Piece
  | skipped (text : Text)
  | lexeme (kind : Kind) (text : Text)
deriving DecidableEq, Repr

namespace Piece

def text : Piece → Text
  | .skipped x | .lexeme _ x => x

def word? : Piece → Option Word
  | .skipped _ => none
  | .lexeme kind x => some (kind, x)

def Fits : Piece → (rest : Text) → Prop
  | .skipped x, rest => Skipped x rest
  | .lexeme kind x, rest => Lexeme kind x rest

end Piece

def joined (ps : List Piece) : Text :=
  ps.flatMap Piece.text

def words (ps : List Piece) : List Word :=
  ps.filterMap Piece.word?

def Fitting : List Piece → (rest : Text) → Prop
  | [], _ => True
  | p :: ps, rest => p.Fits (joined ps ++ rest) ∧ Fitting ps rest

/-- In front of `rest`, the text consists of lexemes with the given words and of skipped pieces. -/
def Lexes (s : Text) (ws : List Word) (rest : Text) : Prop :=
  ∃ ps, Fitting ps rest ∧ joined ps = s ∧ words ps = ws

def located (idx : Nat) (place : Place) : List Piece → List Token
  | [] => []
  | .skipped x :: ps => located (idx + x.length) (place.afterText x) ps
  | .lexeme kind x :: ps =>
    ⟨kind, x, Span.reaching idx place x.dropLast⟩ ::
      located (idx + x.length) (place.afterText x) ps

@[simp] lemma joined_nil : joined [] = [] := rfl

@[simp] lemma joined_cons (p : Piece) (ps : List Piece) : joined (p :: ps) = p.text ++ joined ps :=
  List.flatMap_cons

@[simp] lemma joined_append (ps qs : List Piece) : joined (ps ++ qs) = joined ps ++ joined qs :=
  List.flatMap_append

@[simp] lemma words_append (ps qs : List Piece) : words (ps ++ qs) = words ps ++ words qs :=
  List.filterMap_append

lemma fitting_append {ps qs : List Piece} {rest : Text} :
    Fitting (ps ++ qs) rest ↔ Fitting ps (joined qs ++ rest) ∧ Fitting qs rest := by
  induction ps with
  | nil => simp [Fitting]
  | cons p ps ih => simp [Fitting, ih, and_assoc]

lemma Piece.Fits.text_ne_nil {p : Piece} {rest : Text} (h : p.Fits rest) : p.text ≠ [] := by
  cases p with
  | skipped x => exact Skipped.ne_nil h
  | lexeme kind x => exact Lexeme.ne_nil h

lemma map_word_located (idx : Nat) (place : Place) (ps : List Piece) :
    (located idx place ps).map word = words ps := by
  induction ps generalizing idx place with
  | nil => rfl
  | cons p ps ih =>
    cases p with
    | skipped x => exact ih _ _
    | lexeme kind x => exact congrArg ((kind, x) :: ·) (ih _ _)

lemma exists_of_located_eq_append {idx : Nat} {place : Place} {ps : List Piece}
    {before after : List Token} {t : Token}
    (h : located idx place ps = before ++ t :: after) :
    ∃ qs rs, ps = qs ++ .lexeme t.kind t.lexeme :: rs ∧ located idx place qs = before ∧
      t.span = Span.reaching (idx + (joined qs).length) (place.afterText (joined qs))
        t.lexeme.dropLast := by
  induction ps generalizing idx place before with
  | nil => simp [located] at h
  | cons p ps ih =>
    cases p with
    | skipped x =>
      obtain ⟨qs, rs, rfl, hq, ht⟩ := ih h
      refine ⟨.skipped x :: qs, rs, rfl, hq, ?_⟩
      simpa [Piece.text, Place.afterText, Nat.add_assoc] using ht
    | lexeme kind x =>
      cases before with
      | nil =>
        obtain ⟨rfl, _⟩ := List.cons.inj h
        exact ⟨[], ps, rfl, rfl, rfl⟩
      | cons b before =>
        obtain ⟨rfl, htail⟩ := List.cons.inj h
        obtain ⟨qs, rs, rfl, hq, ht⟩ := ih htail
        refine ⟨.lexeme kind x :: qs, rs, rfl, by rw [located, hq], ?_⟩
        simpa [Piece.text, Place.afterText, Nat.add_assoc] using ht

namespace Lexes

lemma nil (rest : Text) : Lexes [] [] rest :=
  ⟨[], trivial, rfl, rfl⟩

lemma skipped {x rest : Text} (h : Skipped x rest) : Lexes x [] rest :=
  ⟨[.skipped x], ⟨h, trivial⟩, by simp [Piece.text], rfl⟩

lemma lexeme {kind : Kind} {x rest : Text} (h : Lexeme kind x rest) : Lexes x [(kind, x)] rest :=
  ⟨[.lexeme kind x], ⟨h, trivial⟩, by simp [Piece.text], rfl⟩

lemma append {s t rest : Text} {ws vs : List Word} (hs : Lexes s ws (t ++ rest))
    (ht : Lexes t vs rest) : Lexes (s ++ t) (ws ++ vs) rest := by
  obtain ⟨ps, hps, rfl, rfl⟩ := hs
  obtain ⟨qs, hqs, rfl, rfl⟩ := ht
  exact ⟨ps ++ qs, fitting_append.mpr ⟨hps, hqs⟩, joined_append ps qs, words_append ps qs⟩

end Lexes

def Reading.Stops : Reading → Prop
  | .finished | .endless _ | .stray _ => True
  | .skipped _ _ | .token _ _ _ => False

lemma exists_fitting (s : Text) :
    ∃ ps rest, s = joined ps ++ rest ∧ Fitting ps rest ∧ (Reading.first rest).Stops := by
  induction hn : s.length using Nat.strong_induction_on generalizing s with
  | _ n ih =>
    have step (p : Piece) (r : Text) (hs : s = p.text ++ r) (hp : p.Fits r) :
        ∃ ps rest, s = joined ps ++ rest ∧ Fitting ps rest ∧ (Reading.first rest).Stops := by
      have hlt : r.length < n := by
        have hpos := List.length_pos_iff.mpr hp.text_ne_nil
        rw [← hn, hs, List.length_append]
        omega
      obtain ⟨ps, rest, rfl, hps, hrest⟩ := ih r.length hlt r rfl
      exact ⟨p :: ps, rest, by simp [hs], ⟨hp, hps⟩, hrest⟩
    cases hr : Reading.first s with
    | skipped x r =>
      obtain ⟨hs, hx⟩ := Reading.first_eq_skipped_iff.mp hr
      exact step (.skipped x) r hs hx
    | token kind x r =>
      obtain ⟨hs, hx⟩ := Reading.first_eq_token_iff.mp hr
      exact step (.lexeme kind x) r hs hx
    | finished => exact ⟨[], s, rfl, trivial, by simp [hr, Reading.Stops]⟩
    | endless cause => exact ⟨[], s, rfl, trivial, by simp [hr, Reading.Stops]⟩
    | stray c => exact ⟨[], s, rfl, trivial, by simp [hr, Reading.Stops]⟩

end Token

namespace Cursor

open Token

lemma scan_of_skipped {c : Cursor} {x rest : Text} (h : Reading.first c.rest = .skipped x rest) :
    c.scan = (c.past x rest).scan := by
  rw [scan]
  split <;> simp_all

lemma scan_of_token {c : Cursor} {kind : Kind} {x rest : Text}
    (h : Reading.first c.rest = .token kind x rest) :
    c.scan = (.ok (some ⟨kind, c.held ++ x, c.spanOver x⟩), c.past x rest) := by
  rw [scan]
  split <;> simp_all

lemma scan_of_endless {c : Cursor} {cause : Fault.Cause}
    (h : Reading.first c.rest = .endless cause) :
    c.scan = (.error ⟨cause, c.spanOver c.rest⟩, c.holdAll) := by
  rw [scan]
  split <;> simp_all

lemma scan_of_stray {c : Cursor} {char : Char} (h : Reading.first c.rest = .stray char) :
    c.scan = (.error ⟨.invalidCharacter char, c.span⟩, c) := by
  rw [scan]
  split <;> simp_all

lemma scan_of_rest_nil {c : Cursor} (h : c.rest = []) : c.scan = (.ok none, c) := by
  rw [scan]
  split <;> simp_all [Reading.first]

lemma drain_eq (c : Cursor) :
    c.drain = match c.scan with
      | (.ok none, d) => ⟨[], none, d⟩
      | (.error fault, d) => ⟨[], some fault, d⟩
      | (.ok (some token), d) => { d.drain with tokens := token :: d.drain.tokens } := by
  rw [drain]
  split <;> simp_all

lemma drain_of_skipped {c : Cursor} {x rest : Text} (h : Reading.first c.rest = .skipped x rest) :
    c.drain = (c.past x rest).drain := by
  rw [drain_eq c, drain_eq (c.past x rest), scan_of_skipped h]

lemma drain_of_token {c : Cursor} {kind : Kind} {x rest : Text}
    (h : Reading.first c.rest = .token kind x rest) :
    c.drain = { (c.past x rest).drain with
      tokens := ⟨kind, c.held ++ x, c.spanOver x⟩ :: (c.past x rest).drain.tokens } := by
  rw [drain_eq c, scan_of_token h]

lemma drain_of_rest_nil {c : Cursor} (h : c.rest = []) : c.drain = ⟨[], none, c⟩ := by
  rw [drain_eq, scan_of_rest_nil h]

@[simp] lemma past_nil {c : Cursor} (h : c.held = []) : c.past [] c.rest = c := by
  cases c
  simp_all [past, Place.afterText]

@[simp] lemma past_past (c : Cursor) (x y r rest : Text) :
    (c.past x r).past y rest = c.past (x ++ y) rest := by
  simp [past, Place.afterText, Nat.add_assoc]

lemma drain_of_fitting {c : Cursor} {ps : List Piece} {rest : Text} (hc : c.held = [])
    (hps : Fitting ps rest) (hr : c.rest = joined ps ++ rest) :
    c.drain = { (c.past (joined ps) rest).drain with
      tokens := located c.idx c.place ps ++ (c.past (joined ps) rest).drain.tokens } := by
  induction ps generalizing c with
  | nil =>
    obtain rfl : c.rest = rest := hr
    rw [joined_nil, past_nil hc]
    rfl
  | cons p ps ih =>
    obtain ⟨hp, hps⟩ := hps
    have hd := @ih (c.past p.text (joined ps ++ rest)) rfl hps rfl
    rw [past_past] at hd
    cases p with
    | skipped x =>
      have hf : Reading.first c.rest = .skipped x (joined ps ++ rest) :=
        Reading.first_eq_skipped_iff.mpr ⟨by simpa [Piece.text] using hr, hp⟩
      rw [drain_of_skipped hf, joined_cons]
      simpa [past, hc, located, Piece.text] using! hd
    | lexeme kind x =>
      have hf : Reading.first c.rest = .token kind x (joined ps ++ rest) :=
        Reading.first_eq_token_iff.mpr ⟨by simpa [Piece.text] using hr, hp⟩
      rw [drain_of_token hf, joined_cons]
      simp only [Piece.text] at hd ⊢
      rw [hd]
      simp [past, hc, located, spanOver]

lemma tokens_drain_of_stops {c : Cursor} (h : (Reading.first c.rest).Stops) :
    c.drain.tokens = [] := by
  rw [drain_eq]
  cases hr : Reading.first c.rest with
  | finished => rw [scan_of_rest_nil (Reading.first_eq_finished_iff.mp hr)]
  | endless cause => rw [scan_of_endless hr]
  | stray char => rw [scan_of_stray hr]
  | skipped x rest => simp [hr, Reading.Stops] at h
  | token kind x rest => simp [hr, Reading.Stops] at h

lemma fault_drain_of_stops {c : Cursor} (h : (Reading.first c.rest).Stops) (hc : c.rest ≠ []) :
    ∃ fault, c.drain.fault = some fault ∧ fault.span.idx = c.idx ∧
      fault.cause.kind.isLexical = true := by
  rw [drain_eq]
  cases hr : Reading.first c.rest with
  | finished => exact (hc (Reading.first_eq_finished_iff.mp hr)).elim
  | endless cause =>
    rw [scan_of_endless hr]
    exact ⟨_, rfl, rfl, Reading.isLexical_of_first_eq_endless hr⟩
  | stray char =>
    rw [scan_of_stray hr]
    exact ⟨_, rfl, rfl, rfl⟩
  | skipped x rest => simp [hr, Reading.Stops] at h
  | token kind x rest => simp [hr, Reading.Stops] at h

lemma exists_pieces_ofText (s : Text) :
    ∃ ps rest, s = joined ps ++ rest ∧ Fitting ps rest ∧ (Reading.first rest).Stops ∧
      (ofText s).drain = { ((ofText s).past (joined ps) rest).drain with
        tokens := located 0 {} ps } := by
  obtain ⟨ps, rest, hs, hps, hrest⟩ := exists_fitting s
  refine ⟨ps, rest, hs, hps, hrest, ?_⟩
  have htokens : ((ofText s).past (joined ps) rest).drain.tokens = [] :=
    tokens_drain_of_stops hrest
  have hd := @drain_of_fitting (ofText s) ps rest rfl hps hs
  rw [htokens, List.append_nil] at hd
  exact hd

lemma exists_pieces_of_fault_eq_none {s : Text} (h : (ofText s).drain.fault = none) :
    ∃ ps, s = joined ps ∧ Fitting ps [] ∧ (ofText s).drain.tokens = located 0 {} ps := by
  obtain ⟨ps, rest, hs, hps, hrest, hd⟩ := exists_pieces_ofText s
  obtain rfl : rest = [] := by
    by_contra hne
    obtain ⟨fault, hf, _⟩ := @fault_drain_of_stops ((ofText s).past (joined ps) rest) hrest hne
    rw [hd] at h
    simp [hf] at h
  exact ⟨ps, by simpa using hs, hps, by rw [hd]⟩

lemma drain_ofText_of_fitting {ps : List Piece} (h : Fitting ps []) :
    (ofText (joined ps)).drain = ⟨located 0 {} ps, none, (ofText (joined ps)).past (joined ps) []⟩ := by
  have hd := @drain_of_fitting (ofText (joined ps)) ps [] rfl h (by simp [ofText])
  have hend := @drain_of_rest_nil ((ofText (joined ps)).past (joined ps) []) rfl
  rw [hend] at hd
  simpa using! hd

lemma drain_ofText_of_lexes {s : Text} {ws : List Word} (h : Lexes s ws []) :
    (ofText s).drain.fault = none ∧ (ofText s).drain.tokens.map word = ws := by
  obtain ⟨ps, hps, rfl, rfl⟩ := h
  rw [drain_ofText_of_fitting hps]
  exact ⟨rfl, map_word_located 0 {} ps⟩

/-- A text is read to its end exactly when it consists of lexemes and skipped pieces, and then the
lexemes are the tokens it gives. -/
theorem drain_ofText_iff_lexes (s : Text) (ws : List Word) :
    ((ofText s).drain.fault = none ∧ (ofText s).drain.tokens.map word = ws) ↔ Lexes s ws [] := by
  constructor
  · rintro ⟨hfault, htokens⟩
    obtain ⟨ps, hs, hps, hd⟩ := exists_pieces_of_fault_eq_none hfault
    refine ⟨ps, hps, hs.symm, ?_⟩
    rw [← htokens, hd, map_word_located]
  · exact drain_ofText_of_lexes

end Cursor

end BraceMarkup
