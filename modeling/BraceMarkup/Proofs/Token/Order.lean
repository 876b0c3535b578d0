import BraceMarkup.Proofs.Token.Position

namespace BraceMarkup.Token

variable {idx : Nat} {place : Place} {ps : List Piece} {t : Token}

lemma located_append (idx : Nat) (place : Place) (ps qs : List Piece) :
    located idx place (ps ++ qs) = located idx place ps ++
      located (idx + (joined ps).length) (place.afterText (joined ps)) qs := by
  induction ps generalizing idx place with
  | nil => rfl
  | cons p ps ih =>
    cases p with
    | skipped x => simp [located, ih, Piece.text, Place.afterText, Nat.add_assoc]
    | lexeme kind x => simp [located, ih, Piece.text, Place.afterText, Nat.add_assoc]

lemma map_idx_located (idx n : Nat) (place place' : Place) (ps : List Piece) :
    (located (idx + n) place' ps).map (fun t => t.span.idx) =
      (located idx place ps).map fun t => t.span.idx + (n : Int) := by
  induction ps generalizing idx place place' with
  | nil => rfl
  | cons p ps ih =>
    cases p with
    | skipped x =>
      rw [located, located, Nat.add_right_comm]
      exact ih _ _ _
    | lexeme kind x =>
      rw [located, located, Nat.add_right_comm, List.map_cons, List.map_cons]
      congr 1
      exact ih _ _ _

lemma located_eq_nil (h : words ps = []) : located idx place ps = [] := by
  rw [← map_word_located idx place] at h
  exact List.map_eq_nil_iff.mp h

lemma Lexeme.stop_reaching {kind : Kind} {x rest : Text} (h : Lexeme kind x rest) (n : Nat)
    (p : Place) : (Span.reaching n p x.dropLast).stop = n + x.length := by
  have hpos := List.length_pos_iff.mpr h.ne_nil
  simp only [Span.stop, Span.reaching, List.length_dropLast]
  omega

variable {rest : Text} (hps : Fitting ps rest)
include hps

lemma exists_edges_of_mem_located (h : t ∈ located idx place ps) :
    ∃ qs rs, ps = qs ++ .lexeme t.kind t.lexeme :: rs ∧
      Lexeme t.kind t.lexeme (joined rs ++ rest) ∧
      t.span.idx = idx + (joined qs).length ∧
      t.span.stop = idx + (joined qs).length + t.lexeme.length := by
  obtain ⟨before, after, hsplit⟩ := List.append_of_mem h
  obtain ⟨qs, rs, rfl, _, hspan⟩ := exists_of_located_eq_append hsplit
  have hx : Lexeme t.kind t.lexeme (joined rs ++ rest) := (fitting_append.mp hps).2.1
  refine ⟨qs, rs, rfl, hx, by simp [hspan, Span.reaching], ?_⟩
  rw [hspan, hx.stop_reaching]
  push_cast
  rfl

lemma bounds_of_mem_located (h : t ∈ located idx place ps) :
    idx ≤ t.span.idx ∧ t.span.idx < t.span.stop ∧
      t.span.stop ≤ idx + (joined ps).length := by
  obtain ⟨qs, rs, rfl, hx, hidx, hstop⟩ := exists_edges_of_mem_located hps h
  have hpos := List.length_pos_iff.mpr hx.ne_nil
  rw [hidx, hstop, joined_append, joined_cons]
  simp only [List.length_append, Piece.text]
  omega

lemma pairwise_located : (located idx place ps).Pairwise fun t u => t.span.stop ≤ u.span.idx := by
  induction ps generalizing idx place with
  | nil => exact .nil
  | cons p ps ih =>
    cases p with
    | skipped x => exact ih hps.2
    | lexeme kind x =>
      have hx : Lexeme kind x (joined ps ++ rest) := hps.1
      refine .cons (fun u hu => ?_) (ih hps.2)
      have hle := (bounds_of_mem_located hps.2 hu).1
      rw [hx.stop_reaching]
      exact_mod_cast hle

lemma lexeme_eq_text (h : t ∈ located 0 {} ps) : t.lexeme = t.span.text (joined ps ++ rest) := by
  obtain ⟨qs, rs, rfl, -, hidx, hstop⟩ := exists_edges_of_mem_located hps h
  have hs : joined (qs ++ .lexeme t.kind t.lexeme :: rs) ++ rest =
      joined qs ++ (t.lexeme ++ (joined rs ++ rest)) := by simp [Piece.text]
  rw [Span.text, hidx, hstop, hs, Nat.cast_zero, zero_add]
  exact (Text.slice_of_append _ _ _).symm

end BraceMarkup.Token
