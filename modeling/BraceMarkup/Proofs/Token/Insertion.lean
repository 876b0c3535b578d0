import BraceMarkup.Proofs.Token.Boundary
import BraceMarkup.Proofs.Token.Order

namespace BraceMarkup

namespace Token

inductive Filler : Text → Prop
  | nil : Filler []
  | blank {c : Char} {w : Text} : c ∈ ['\n', '\r', '\t', ' '] → Filler w → Filler (c :: w)
  | block {body w : Text} : ¬ ['*', '/'] <:+: body → Filler w →
      Filler ('/' :: '*' :: body ++ ['*', '/'] ++ w)
  | line {body w : Text} : '\n' ∉ body → Filler w → Filler ('/' :: '/' :: body ++ ['\n'] ++ w)
  | escape (c : Char) {w : Text} : Filler w → Filler ('\\' :: c :: w)

def Edge (ts : List Token) (i : Nat) : Prop :=
  ∃ t ∈ ts, (i : Int) = t.span.idx ∨ (i : Int) = t.span.stop

variable {w : Text} {ps qs rs : List Piece} {i : Nat}

lemma Filler.lexes (h : Filler w) (rest : Text) : Lexes w [] rest := by
  induction h with
  | nil => exact .nil rest
  | blank hc _ ih => exact (Lexes.skipped (.blank _ hc)).append ih
  | block hb _ ih => exact (Lexes.skipped (.block _ hb)).append ih
  | line hb _ ih => exact (Lexes.skipped (.line _ hb)).append ih
  | escape c _ ih => exact (Lexes.skipped (.escape c _)).append ih

lemma Filler.breaks (h : Filler w) (hw : w ≠ []) (rest : Text) : Breaks (w ++ rest) := by
  cases h with
  | nil => exact (hw rfl).elim
  | @blank c w hc _ =>
    have hno : (['\n', '\r', '\t', ' ']).all (fun d => !isNameChar d && d != openBrace) = true := by
      decide
    have hc := List.all_eq_true.mp hno c hc
    rw [Bool.and_eq_true, Bool.not_eq_true', bne_iff_ne] at hc
    exact breaks_cons hc.1 hc.2 _
  | block | line | escape => exact breaks_cons (by decide) (by decide) _

lemma exists_split_of_edge (hps : Fitting ps []) (h : Edge (located 0 {} ps) i) :
    ∃ qs rs, ps = qs ++ rs ∧ i = (joined qs).length ∧
      (joined rs = [] → ∀ x, qs.getLast? ≠ some (.skipped x)) := by
  obtain ⟨t, ht, hi⟩ := h
  obtain ⟨qs, rs, rfl, hx, hidx, hstop⟩ := exists_edges_of_mem_located hps ht
  rcases hi with hi | hi
  · refine ⟨qs, .lexeme t.kind t.lexeme :: rs, rfl, by omega, fun hrs => ?_⟩
    simp [Piece.text, hx.ne_nil] at hrs
  · refine ⟨qs ++ [.lexeme t.kind t.lexeme], rs, by simp, ?_, by simp⟩
    simp only [joined_append, joined_cons, joined_nil, Piece.text, List.append_nil,
      List.length_append]
    omega

lemma exists_fitting_insert (hw : Filler w) (h : Fitting (qs ++ rs) [])
    (hedge : joined rs = [] → ∀ x, qs.getLast? ≠ some (.skipped x)) :
    ∃ fs, joined fs = w ∧ words fs = [] ∧ Fitting (qs ++ (fs ++ rs)) [] := by
  obtain ⟨hqs, hrs⟩ := fitting_append.mp h
  obtain ⟨fs, hfs, rfl, hwords⟩ := hw.lexes (joined rs ++ [])
  refine ⟨fs, rfl, hwords, fitting_append.mpr ⟨?_, fitting_append.mpr ⟨hfs, hrs⟩⟩⟩
  rw [joined_append, List.append_assoc]
  by_cases hne : joined fs = []
  · rwa [hne]
  · exact hqs.of_breaks (hw.breaks hne _) (by simpa using hedge)

def shifted (i n : Nat) (idx : Int) : Int :=
  if idx < i then idx else idx + n

lemma map_idx_located_insert {fs : List Piece} (hps : Fitting (qs ++ rs) []) (hfs : words fs = []) :
    (located 0 {} (qs ++ (fs ++ rs))).map (fun t => t.span.idx) =
      (located 0 {} (qs ++ rs)).map
        fun t => shifted (joined qs).length (joined fs).length t.span.idx := by
  obtain ⟨hqs, hrs⟩ := fitting_append.mp hps
  simp only [located_append, located_eq_nil hfs, List.nil_append, List.map_append]
  congr 1
  · refine List.map_congr_left fun t ht => ?_
    have hb := bounds_of_mem_located hqs ht
    rw [shifted, if_pos (by omega)]
  · rw [map_idx_located _ _ (Place.afterText {} (joined qs))]
    refine List.map_congr_left fun t ht => ?_
    have hb := bounds_of_mem_located hrs ht
    rw [shifted, if_neg (by omega)]

end Token

namespace Cursor

open Token

lemma drain_insert {s w : Text} {i : Nat} (hs : (ofText s).drain.fault = none)
    (hi : Edge (ofText s).drain.tokens i) (hw : Filler w) :
    (ofText (s.take i ++ w ++ s.drop i)).drain.fault = none ∧
      (ofText (s.take i ++ w ++ s.drop i)).drain.tokens.map word =
        (ofText s).drain.tokens.map word ∧
      (ofText (s.take i ++ w ++ s.drop i)).drain.tokens.map (fun t => t.span.idx) =
        (ofText s).drain.tokens.map fun t => shifted i w.length t.span.idx := by
  obtain ⟨ps, rfl, hps, htokens⟩ := exists_pieces_of_fault_eq_none hs
  rw [htokens] at hi ⊢
  obtain ⟨qs, rs, rfl, rfl, hedge⟩ := exists_split_of_edge hps hi
  obtain ⟨fs, rfl, hwords, hfit⟩ := exists_fitting_insert hw hps hedge
  have hjoined : (joined (qs ++ rs)).take (joined qs).length ++ joined fs ++
      (joined (qs ++ rs)).drop (joined qs).length = joined (qs ++ (fs ++ rs)) := by simp
  rw [hjoined, drain_ofText_of_fitting hfit]
  refine ⟨rfl, ?_, map_idx_located_insert hps hwords⟩
  rw [map_word_located, map_word_located]
  simp [hwords]

end Cursor

end BraceMarkup
