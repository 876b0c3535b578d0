import BraceMarkup.Proofs.Element.Content
import BraceMarkup.Proofs.Element.Language

namespace BraceMarkup

open Text Token Element Grammar

namespace Token.Balanced

variable {opening closing : Char} {s t : Text} {p : Char → Bool}

lemma append_left (ht : ∀ c ∈ t, c ≠ opening ∧ c ≠ closing) (h : Balanced opening closing s) :
    Balanced opening closing (t ++ s) := by
  induction t with
  | nil => exact h
  | cons c t ih =>
    obtain ⟨hc, ht⟩ := List.forall_mem_cons.mp ht
    exact .other hc.1 hc.2 (ih ht)

lemma filter (ho : p opening = true) (hc : p closing = true) (h : Balanced opening closing s) :
    Balanced opening closing (s.filter p) := by
  induction h with
  | nil => exact .nil
  | @other c s hno hnc _ ih =>
    by_cases hp : p c = true
    · rw [List.filter_cons_of_pos hp]
      exact .other hno hnc ih
    · rw [List.filter_cons_of_neg hp]
      exact ih
  | nested _ _ ihs iht =>
    rw [List.filter_append, List.filter_cons_of_pos ho, List.filter_cons_of_pos hc]
    exact .nested ihs iht

lemma of_filter (ho : p opening = true) (hc : p closing = true)
    (h : Balanced opening closing (s.filter p)) : Balanced opening closing s := by
  have hother {u : Text} (hu : ∀ c ∈ u, ¬ p c = true) : ∀ c ∈ u, c ≠ opening ∧ c ≠ closing := by
    intro c hcu
    constructor
    · rintro rfl
      exact hu c hcu ho
    · rintro rfl
      exact hu c hcu hc
  generalize hs : s.filter p = u at h
  induction h generalizing s with
  | nil =>
    rw [List.filter_eq_nil_iff] at hs
    rw [← List.append_nil s]
    exact append_left (hother hs) .nil
  | other hno hnc _ ih =>
    obtain ⟨u, v, rfl, hu, -, hv⟩ := List.filter_eq_cons_iff.mp hs
    exact append_left (hother hu) (.other hno hnc (ih hv))
  | @nested a b _ _ iha ihb =>
    rw [List.cons_append] at hs
    obtain ⟨u, rest, rfl, hu, -, hrest⟩ := List.filter_eq_cons_iff.mp hs
    obtain ⟨v, rest, rfl, hv, hclose⟩ := List.filter_eq_append_iff.mp hrest
    obtain ⟨w, x, rfl, hw, -, hx⟩ := List.filter_eq_cons_iff.mp hclose
    have hinner : (v ++ w).filter p = a := by
      rw [List.filter_append, hv, List.filter_eq_nil_iff.mpr hw, List.append_nil]
    have hnested := nested (iha hinner) (ihb hx)
    rw [List.cons_append, List.append_assoc] at hnested
    exact append_left (hother hu) hnested

lemma of_solid_eq (h : Balanced openBrace closeBrace s) (hst : solid t = solid s) :
    Balanced openBrace closeBrace t := by
  have hsolid : Balanced openBrace closeBrace (solid s) := h.filter (by decide) (by decide)
  rw [← hst] at hsolid
  exact of_filter (by decide) (by decide) hsolid

lemma of_reading {s : Text}
    (h : balanced openBrace closeBrace 0 (s ++ [closeBrace]) = some (s ++ [closeBrace], [])) :
    Balanced openBrace closeBrace s := by
  obtain ⟨b, heq, hb⟩ := balanced_sound h
  rwa [List.append_cancel_right heq]

end Token.Balanced

lemma Token.IsBlock.leafTree {t : Token} {body : Text} (h : IsBlock t body) :
    LeafTree t (ofBlock t) := by
  obtain ⟨-, name, hname, -⟩ := h
  obtain ⟨-, hkind⟩ | ⟨-, hkind⟩ := Reading.embeddedKind?_eq_some hname
  · exact .script hkind
  · exact .style hkind

lemma parse_block {name body : Text} {kind : Kind} (hname : embeddedKind? name = some kind)
    (hb : Balanced openBrace closeBrace body) : ∃ t, IsBlock t body ∧ t.kind = kind ∧
      parse (name ++ openBrace :: body ++ [closeBrace]) = .ok [ofBlock t] := by
  have hlexeme : Lexeme kind (name ++ openBrace :: body ++ [closeBrace]) [] := by
    obtain ⟨rfl, rfl⟩ | ⟨rfl, rfl⟩ := Reading.embeddedKind?_eq_some hname
    · exact .script [] hb
    · exact .style [] hb
  obtain ⟨hfault, hwords⟩ := Cursor.drain_ofText_of_lexes (Lexes.lexeme hlexeme)
  obtain ⟨t, htokens, hword⟩ := List.map_eq_singleton_iff.mp hwords
  obtain ⟨hkind, hx⟩ := Prod.mk.inj hword
  have hblock : IsBlock t body := ⟨hb, name, hkind ▸ hname, hx⟩
  refine ⟨t, hblock, hkind, parseWithin_of_elementTrees hfault ?_ ?_⟩
  · rw [htokens]
    exact (ElementTree.leaf hblock.leafTree).single
  · have hdepth := depth_ofBlock_lt t
    rw [maxDepth, maxDepth, nestingLimit]
    omega

end BraceMarkup
