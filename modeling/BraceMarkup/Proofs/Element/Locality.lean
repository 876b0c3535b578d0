import BraceMarkup.Proofs.Element.Language
import BraceMarkup.Proofs.Token.Boundary

/-! Where a fault is. All before it can be completed to a text that parses, and a token that is
refused could not have been accepted in any other text that starts the same. -/

namespace BraceMarkup

open Feed Grammar Element Token

variable {limit : Nat} {s : Text} {w rest : List Token} {ending : Ending} {ps : List Piece}

lemma Text.slice_of_eq_append {x r : Text} {n : Int} (hs : s = x ++ r) (hn : n = x.length) :
    s.slice 0 n = x := by
  have hpos : ¬ (x.length : Int) < 0 := by omega
  subst hs hn
  simp [Text.slice, Text.index, hpos]

def EndsAt (s : Text) (n : Nat) : Ending → Prop
  | .ok span => span.idx = n ∧ s.length < span.stop
  | .error fault => fault.span.idx = n ∧ fault.cause.kind.isLexical = true

lemma exists_pieces_ofCursor (s : Text) :
    ∃ ps r, s = joined ps ++ r ∧ Fitting ps r ∧
      (Recording.ofCursor (.ofText s)).tokens = located 0 {} ps ∧
      EndsAt s (joined ps).length (Recording.ofCursor (.ofText s)).ending := by
  obtain ⟨ps, r, hs, hps, hstops, hd⟩ := Cursor.exists_pieces_ofText s
  refine ⟨ps, r, hs, hps, by rw [Recording.ofCursor, hd], ?_⟩
  by_cases hr : r = []
  · subst hr
    have hend := @Cursor.drain_of_rest_nil ((Cursor.ofText s).past (joined ps) []) rfl
    have hlen : s.length = (joined ps).length := by simp [hs]
    rw [Recording.ofCursor, hd, hend]
    simp [EndsAt, Cursor.past, Cursor.span, Span.reaching, Span.stop, Cursor.ofText, hlen]
  · obtain ⟨fault, hf, hidx, hlex⟩ :=
      @Cursor.fault_drain_of_stops ((Cursor.ofText s).past (joined ps) r) hstops hr
    rw [Recording.ofCursor, hd, hf]
    exact ⟨by simpa [Cursor.past, Cursor.ofText] using hidx, hlex⟩

lemma exists_pieces_of_refusal (cause : Fault.Cause)
    (hts : (Recording.ofCursor (.ofText s)).tokens = w ++ rest) :
    ∃ qs r, s = joined qs ++ r ∧ Fitting qs r ∧ located 0 {} qs = w ∧
      (refusal cause rest (Recording.ofCursor (.ofText s)).ending).span.idx =
        (joined qs).length := by
  obtain ⟨ps, r, hs, hps, htokens, hend⟩ := exists_pieces_ofCursor s
  rw [htokens] at hts
  cases rest with
  | nil =>
    refine ⟨ps, r, hs, hps, by simpa using hts, ?_⟩
    cases he : (Recording.ofCursor (.ofText s)).ending with
    | ok span =>
      rw [he] at hend
      exact hend.1
    | error fault =>
      rw [he] at hend
      exact hend.1
  | cons t rest =>
    obtain ⟨qs, rs, rfl, hqs, hspan⟩ := exists_of_located_eq_append hts
    have hfit := (fitting_append.mp hps).1
    refine ⟨qs, joined (.lexeme t.kind t.lexeme :: rs) ++ r, by simp [hs], hfit, hqs, ?_⟩
    simp [refusal, hspan, Span.reaching]

lemma lexeme_of_mem_closers {kind : Kind} {x : Text} (h : (kind, x) ∈ closers) (r : Text) :
    Lexeme kind x r := by
  simp only [closers, List.mem_cons, Prod.mk.injEq, List.not_mem_nil, or_false] at h
  rcases h with ⟨rfl, rfl⟩ | ⟨rfl, rfl⟩ | ⟨rfl, rfl⟩
  · exact @Lexeme.string '"' [] r (.inl rfl) (by simp)
  · exact .semicolon r
  · exact .rightBrace r

lemma exists_lexes_of_closers {us : List Token} (h : ∀ u ∈ us, u.word ∈ closers) :
    ∃ x, Lexes x (us.map Token.word) [] := by
  induction us with
  | nil => exact ⟨[], .nil []⟩
  | cons u us ih =>
    obtain ⟨x, hx⟩ := ih fun v hv => h v (List.mem_cons_of_mem u hv)
    have hu : Lexeme u.kind u.lexeme (x ++ []) := lexeme_of_mem_closers (h u (by simp)) _
    exact ⟨u.lexeme ++ x, (Lexes.lexeme hu).append hx⟩

lemma exists_parse_of_viable {r : Text} (hps : Fitting ps r)
    (h : Viable ElementTrees (located 0 {} ps)) :
    ∃ t limit es, parseWithin limit (joined ps ++ t) = .ok es := by
  obtain ⟨us, es, hus, hes⟩ := h
  obtain ⟨y, hy⟩ := exists_completion hps
  obtain ⟨x, hx⟩ := exists_lexes_of_closers hus
  have hlex : Lexes (joined ps ++ y ++ x) (words ps ++ us.map Token.word) [] :=
    (hy (x ++ [])).append hx
  obtain ⟨hf, htokens⟩ := Cursor.drain_ofText_of_lexes hlex
  have hwords : (Cursor.ofText (joined ps ++ y ++ x)).drain.tokens.map Token.word =
      (located 0 {} ps ++ us).map Token.word := by
    rw [htokens, List.map_append, map_word_located]
  obtain ⟨fs, hfs, _⟩ := hes.relocate hwords
  refine ⟨y ++ x, maxDepth fs + 1, fs, ?_⟩
  rw [← List.append_assoc]
  exact parseWithin_of_elementTrees hf hfs (Nat.lt_succ_self _)

lemma exists_similar_token {t : Token} {r u : Text} (hps : Fitting ps (t.lexeme ++ r))
    (ht : Lexeme t.kind t.lexeme r)
    (hf : (Cursor.ofText (joined ps ++ (t.lexeme ++ u))).drain.fault = none) :
    ∃ t' ts, (Cursor.ofText (joined ps ++ (t.lexeme ++ u))).drain.tokens =
        located 0 {} ps ++ t' :: ts ∧
      (t'.kind = t.kind ∨ t.kind = .name ∧ t'.kind.isEmbedded = true) := by
  obtain ⟨d, x, hx⟩ := List.exists_cons_of_ne_nil ht.ne_nil
  have hps' : Fitting ps (t.lexeme ++ u) := by
    rw [hx, List.cons_append] at hps ⊢
    exact hps.of_cons _
  have hd := @Cursor.drain_of_fitting (.ofText (joined ps ++ (t.lexeme ++ u))) ps
    (t.lexeme ++ u) rfl hps' rfl
  rw [hd] at hf ⊢
  rcases first_append_of_lexeme ht u with ⟨kind, x', r', hr, hkind⟩ | ⟨cause, hr⟩
  · rw [Cursor.drain_of_token hr]
    exact ⟨_, _, rfl, hkind⟩
  · have hstops : (Reading.first (t.lexeme ++ u)).Stops := by simp [hr, Reading.Stops]
    obtain ⟨fault, hfault, _⟩ := @Cursor.fault_drain_of_stops
      ((Cursor.ofText (joined ps ++ (t.lexeme ++ u))).past (joined ps) (t.lexeme ++ u)) hstops
      (by simp [hx, Cursor.past])
    simp [hfault] at hf

lemma not_parse_of_refused {t : Token} {cause : Fault.Cause} (hc : cause ≠ .nestingTooDeep)
    (hts : (Recording.ofCursor (.ofText s)).tokens = w ++ t :: rest)
    (hrun : ∀ rest' ending', Similar (t :: rest) ending rest' ending' →
      Runs (document limit : Building Cursor _) (w ++ rest') ending'
        (.error (refusal cause rest' ending')))
    (u : Text) (limit' : Nat) (es : List (Element Span)) :
    parseWithin limit' (s.slice 0 t.span.stop ++ u) ≠ .ok es := by
  intro hok
  obtain ⟨ps, r, hs, hps, htokens, _⟩ := exists_pieces_ofCursor s
  obtain ⟨qs, rs, rfl, hqs, hspan⟩ := exists_of_located_eq_append (htokens.symm.trans hts)
  obtain ⟨hfit, ht, _⟩ := fitting_append.mp hps
  have ht : Lexeme t.kind t.lexeme (joined rs ++ r) := ht
  have hslice : s.slice 0 t.span.stop = joined qs ++ t.lexeme := by
    refine Text.slice_of_eq_append (r := joined rs ++ r) (by simp [hs, Piece.text]) ?_
    have hpos := List.length_pos_iff.mpr ht.ne_nil
    simp only [hspan, Span.stop, Span.reaching, List.length_dropLast, List.length_append]
    omega
  rw [hslice, List.append_assoc] at hok
  have hfit : Fitting qs (t.lexeme ++ (joined rs ++ r)) := by simpa [Piece.text] using hfit
  obtain ⟨t', ts, htokens', hkind⟩ :=
    exists_similar_token hfit ht (elementsWithin_of_parseWithin hok).1
  have hsim (ending' : Ending) : Similar (t :: rest) ending (t' :: ts) ending' :=
    hkind.elim .kind fun h => .keyword h.1 h.2
  -- the other text meets the refusal at the same place, so it does not parse under any limit
  have hrun := hrun _ (Recording.ofCursor (.ofText (joined qs ++ (t.lexeme ++ u)))).ending (hsim _)
  rw [← hqs, ← htokens'] at hrun
  have herror : parseWithin limit (joined qs ++ (t.lexeme ++ u)) = .error ⟨cause, t'.span⟩ :=
    evaluate_of_runs hrun
  have hwithin : WithinLimit limit (joined qs ++ (t.lexeme ++ u)) := by
    intro fault hfault
    obtain rfl := Except.error.inj (herror.symm.trans hfault)
    exact hc
  have hle := parseWithin_of_le hwithin (Nat.le_max_left limit limit')
  have hle' := parseWithin_of_le (withinLimit_of_ok hok) (Nat.le_max_right limit limit')
  rw [hle, herror, hok] at hle'
  cases hle'

/-- A fault other than too deep a nesting is as far to the right as it can be, and not further. All
before it starts a text that parses. If it refuses a token, no text that starts with all up to the
end of that token parses. -/
theorem parse_fault_locality (limit : Nat) (s : Text) (fault : Fault)
    (h : parseWithin limit s = .error fault) (hc : fault.cause ≠ .nestingTooDeep) :
    (∃ t limit' es, parseWithin limit' (s.slice 0 fault.span.idx ++ t) = .ok es) ∧
    (fault.cause.kind.isLexical = false → fault.span.stop ≤ s.length →
      ∀ t limit' es, parseWithin limit' (s.slice 0 fault.span.stop ++ t) ≠ .ok es) := by
  rcases parseWithin_cases limit s with ⟨es, hok, _⟩ | ⟨w, rest, cause, hts, hw, hc', herror, hrun⟩ |
    ⟨fault', herror, hc'⟩
  · exact nomatch h.symm.trans hok
  · obtain rfl : fault = refusal cause rest (Recording.ofCursor (.ofText s)).ending :=
      Except.error.inj (h.symm.trans herror)
    obtain ⟨qs, r, hs, hqs, rfl, hidx⟩ := exists_pieces_of_refusal cause hts
    constructor
    · rw [Text.slice_of_eq_append hs hidx]
      exact exists_parse_of_viable hqs hw
    · intro hlex hstop
      cases rest with
      | cons t rest => exact not_parse_of_refused hc' hts hrun
      | nil =>
        obtain ⟨ps, r, _, _, _, hend⟩ := exists_pieces_ofCursor s
        cases he : (Recording.ofCursor (.ofText s)).ending with
        | ok span =>
          rw [he] at hend hstop
          exact (not_lt.mpr hstop hend.2).elim
        | error fault =>
          rw [he] at hend hlex
          exact nomatch hlex.symm.trans hend.2
  · obtain rfl : fault = fault' := Except.error.inj (h.symm.trans herror)
    exact (hc hc').elim

theorem parse_fault_locality_unquoted :
    parse "p b=js".toList =
      .error ⟨.unexpectedToken "Expected string value".toList, ⟨4, 2, ⟨1, 5⟩, ⟨1, 6⟩⟩⟩ ∧
    (∃ t limit es, parseWithin limit ("p b=".toList ++ t) = .ok es) ∧
    ∀ t limit es, parseWithin limit ("p b=js".toList ++ t) ≠ .ok es := by
  have h : parse "p b=js".toList =
      .error ⟨.unexpectedToken "Expected string value".toList, ⟨4, 2, ⟨1, 5⟩, ⟨1, 6⟩⟩⟩ := by
    decide +kernel
  obtain ⟨hbefore, hafter⟩ := parse_fault_locality nestingLimit _ _ h (by decide)
  exact ⟨h, hbefore, hafter rfl (by decide)⟩

end BraceMarkup
