import BraceMarkup.Proofs.Token.Pieces

namespace BraceMarkup.Token

variable {x r r' : Text} {kind : Kind} {p : Piece} {ps : List Piece}

lemma Skipped.of_ne_nil (h : Skipped x r) (hr : r ≠ []) (r' : Text) : Skipped x r' := by
  cases h with
  | blank _ hc => exact .blank r' hc
  | escape c => exact .escape c r'
  | line _ hb => exact .line r' hb
  | block _ hb => exact .block r' hb
  | lastEscape | lastLine | lastBlock => exact (hr rfl).elim

lemma Lexeme.of_ne_name (h : Lexeme kind x r) (hk : kind ≠ .name) (r' : Text) :
    Lexeme kind x r' := by
  cases h with
  | name => exact (hk rfl).elim
  | string _ hq hb => exact .string r' hq hb
  | equal => exact .equal r'
  | leftBrace => exact .leftBrace r'
  | rightBrace => exact .rightBrace r'
  | semicolon => exact .semicolon r'
  | html _ hb => exact .html r' hb
  | script _ hb => exact .script r' hb
  | style _ hb => exact .style r' hb

lemma Lexeme.of_endsName (h : Lexeme kind x r) (hr : EndsName x r → EndsName x r') :
    Lexeme kind x r' := by
  by_cases hk : kind = .name
  · subst hk
    cases h with
    | name hc hcs he => exact .name hc hcs (hr he)
  · exact h.of_ne_name hk r'

lemma Piece.Fits.of_cons {c : Char} (h : p.Fits (c :: r)) (r' : Text) : p.Fits (c :: r') := by
  cases p with
  | skipped x =>
    have hx : Skipped x (c :: r) := h
    exact hx.of_ne_nil (by simp) _
  | lexeme kind x =>
    have hx : Lexeme kind x (c :: r) := h
    exact hx.of_endsName fun he => he

lemma Fitting.of_cons {c : Char} (h : Fitting ps (c :: r)) (r' : Text) : Fitting ps (c :: r') := by
  induction ps with
  | nil => trivial
  | cons p ps ih =>
    refine ⟨?_, ih h.2⟩
    have hp := h.1
    cases hj : joined ps with
    | nil =>
      rw [hj] at hp
      exact hp.of_cons r'
    | cons d t =>
      rw [hj] at hp
      exact hp.of_cons _

def Breaks (u : Text) : Prop :=
  ∀ x, EndsName x u

lemma breaks_cons {c : Char} (hc : isNameChar c = false) (hb : c ≠ openBrace) (u : Text) :
    Breaks (c :: u) := by
  intro x
  refine ⟨?_, fun _ => by simpa using hb⟩
  intro d hd
  obtain rfl : c = d := by simpa using hd
  exact hc

lemma breaks_nil : Breaks [] :=
  fun _ => ⟨by simp, by simp⟩

lemma Fitting.of_breaks {u : Text} (h : Fitting ps r) (hu : Breaks u)
    (hlast : r = [] → ∀ x, ps.getLast? ≠ some (.skipped x)) : Fitting ps u := by
  induction ps with
  | nil => trivial
  | cons p ps ih =>
    obtain ⟨hp, hps⟩ := h
    cases ps with
    | nil =>
      refine ⟨?_, trivial⟩
      cases p with
      | skipped x =>
        have hx : Skipped x r := hp
        exact hx.of_ne_nil (fun hr => hlast hr x rfl) u
      | lexeme kind x =>
        have hx : Lexeme kind x r := hp
        exact hx.of_endsName fun _ => hu x
    | cons q ps =>
      refine ⟨?_, ih hps (by simpa using hlast)⟩
      obtain ⟨d, t, hd⟩ := List.exists_cons_of_ne_nil hps.1.text_ne_nil
      rw [joined_cons, hd] at hp ⊢
      exact hp.of_cons _

lemma lexes_newline_or_block (h : p.Fits r) :
    (∀ u, Lexes (p.text ++ ['\n']) (words [p]) u) ∨
      ∃ body, p = .skipped ('/' :: '*' :: body) ∧ ¬ ['*', '/'] <:+: body := by
  have hblank (u : Text) : Lexes ['\n'] [] u := .skipped (.blank u (by simp))
  cases p with
  | lexeme kind x =>
    left
    intro u
    have hx : Lexeme kind x r := h
    have hbreak : Breaks ('\n' :: u) := breaks_cons (by decide) (by decide) u
    have hn : Lexeme kind x ('\n' :: u) := hx.of_endsName fun _ => hbreak x
    exact (Lexes.lexeme hn).append (hblank u)
  | skipped x =>
    have hx : Skipped x r := h
    have complete (hall : ∀ u, Skipped x u) (u : Text) : Lexes (x ++ ['\n']) [] u :=
      (Lexes.skipped (hall _)).append (hblank u)
    cases hx with
    | blank _ hc => exact .inl (complete fun u => .blank u hc)
    | escape c => exact .inl (complete fun u => .escape c u)
    | line _ hb => exact .inl (complete fun u => .line u hb)
    | block _ hb => exact .inl (complete fun u => .block u hb)
    | lastEscape => exact .inl fun u => .skipped (.escape '\n' u)
    | lastLine hb => exact .inl fun u => .skipped (.line u hb)
    | lastBlock hb => exact .inr ⟨_, rfl, hb⟩

lemma Fitting.lexes_concat {qs : List Piece} {y u : Text} {ws : List Word}
    (h : Fitting (qs ++ [p]) r) (hp : Lexes (p.text ++ y) ws u) :
    Lexes (joined (qs ++ [p]) ++ y) (words qs ++ ws) u := by
  obtain ⟨hqs, hfits, -⟩ := fitting_append.mp h
  -- what stands before `p` is followed by the same character as before, whatever comes behind `p`
  have hbefore : Fitting qs (p.text ++ y ++ u) := by
    obtain ⟨d, t, hd⟩ := List.exists_cons_of_ne_nil hfits.text_ne_nil
    rw [joined_cons, hd] at hqs
    rw [hd]
    exact hqs.of_cons _
  have hall := Lexes.append ⟨qs, hbefore, rfl, rfl⟩ hp
  simpa using hall

lemma exists_completion (h : Fitting ps r) : ∃ y, ∀ u, Lexes (joined ps ++ y) (words ps) u := by
  rcases List.eq_nil_or_concat ps with rfl | ⟨qs, p, rfl⟩
  · exact ⟨[], .nil⟩
  · rw [List.concat_eq_append] at h ⊢
    rw [words_append]
    rcases lexes_newline_or_block (fitting_append.mp h).2.1 with hp | ⟨body, rfl, hb⟩
    · exact ⟨['\n'], fun u => h.lexes_concat (hp u)⟩
    · exact ⟨['*', '/'], fun u => h.lexes_concat (.skipped (.block u hb))⟩

lemma ofName_cases (name rest : Text) :
    (∃ kind x r, Reading.ofName name rest = .token kind x r ∧
      (kind = .name ∨ kind.isEmbedded = true)) ∨ ∃ cause, Reading.ofName name rest = .endless cause := by
  rw [Reading.ofName.eq_def]
  split
  · next kind c cs hk =>
    split
    · rw [Reading.ofBlock]
      split
      · exact .inr ⟨_, rfl⟩
      · refine .inl ⟨kind, _, _, rfl, .inr ?_⟩
        rcases Reading.embeddedKind?_eq_some hk with ⟨_, rfl⟩ | ⟨_, rfl⟩ <;> rfl
    · exact .inl ⟨.name, _, _, rfl, .inl rfl⟩
  · exact .inl ⟨.name, _, _, rfl, .inl rfl⟩

lemma first_append_of_lexeme (h : Lexeme kind x r) (u : Text) :
    (∃ kind' x' r', Reading.first (x ++ u) = .token kind' x' r' ∧
      (kind' = kind ∨ kind = .name ∧ kind'.isEmbedded = true)) ∨
    ∃ cause, Reading.first (x ++ u) = .endless cause := by
  by_cases hk : kind = .name
  · subst hk
    cases h with
    | @name c cs _ hc =>
      rw [List.cons_append, Reading.first_of_nameStart hc]
      refine (ofName_cases _ _).imp_left ?_
      rintro ⟨kind, x, r, hr, hkind⟩
      exact ⟨kind, x, r, hr, hkind.imp_right (⟨rfl, ·⟩)⟩
  · exact .inl ⟨kind, x, u, Reading.first_of_lexeme (h.of_ne_name hk u), .inl rfl⟩

end BraceMarkup.Token
