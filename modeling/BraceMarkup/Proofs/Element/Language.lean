import BraceMarkup.Proofs.Element.Limit
import BraceMarkup.Proofs.Element.Outcome

namespace BraceMarkup

open Feed Grammar Element

variable {limit : Nat} {s : Text} {es : List (Element Span)}

lemma fault_eq_none_of_ending {c : Cursor} {span : Span}
    (h : (Recording.ofCursor c).ending = .ok span) : c.drain.fault = none := by
  cases hf : c.drain.fault with
  | none => rfl
  | some fault => simp [Recording.ofCursor, hf] at h

lemma ending_of_fault_eq_none {c : Cursor} (h : c.drain.fault = none) :
    (Recording.ofCursor c).ending = .ok c.drain.cursor.span := by
  simp [Recording.ofCursor, h]

lemma parseWithin_cases (limit : Nat) (s : Text) :
    (∃ es, parseWithin limit s = .ok es ∧ (Cursor.ofText s).drain.fault = none ∧
      ElementsWithin limit (Cursor.ofText s).drain.tokens es) ∨
    (∃ w rest cause, (Recording.ofCursor (.ofText s)).tokens = w ++ rest ∧ Viable ElementTrees w ∧
      cause ≠ .nestingTooDeep ∧
      parseWithin limit s =
        .error (refusal cause rest (Recording.ofCursor (.ofText s)).ending) ∧
      ∀ rest' ending', Similar rest (Recording.ofCursor (.ofText s)).ending rest' ending' →
        Runs (document limit : Building Cursor _) (w ++ rest') ending'
          (.error (refusal cause rest' ending'))) ∨
    ∃ fault, parseWithin limit s = .error fault ∧ fault.cause = .nestingTooDeep := by
  cases outcome_document (σ := Cursor) limit (Recording.ofCursor (.ofText s)).tokens
    (Recording.ofCursor (.ofText s)).ending with
  | accepted w rest es hts hes hrun =>
    obtain ⟨hes, rfl, span, hspan⟩ := hes
    have hok := hrun [] _ (.refl _ _)
    rw [← hts] at hok
    rw [List.append_nil] at hts
    subst hts
    exact .inl ⟨es, evaluate_of_runs hok, fault_eq_none_of_ending hspan, hes⟩
  | refused w rest cause hts hw hc hrun =>
    have herror := hrun rest _ (.refl _ _)
    rw [← hts] at herror
    exact .inr (.inl ⟨w, rest, cause, hts, hw, hc, evaluate_of_runs herror, hrun⟩)
  | tooDeep fault hc hrun => exact .inr (.inr ⟨fault, evaluate_of_runs hrun, hc⟩)

lemma elementsWithin_of_parseWithin (h : parseWithin limit s = .ok es) :
    (Cursor.ofText s).drain.fault = none ∧
      ElementsWithin limit (Cursor.ofText s).drain.tokens es := by
  rcases parseWithin_cases limit s with ⟨fs, hok, hfs⟩ | ⟨w, rest, cause, _, _, _, herror, _⟩ |
    ⟨fault, herror, _⟩
  · obtain rfl : es = fs := Except.ok.inj (h.symm.trans hok)
    exact hfs
  · exact nomatch h.symm.trans herror
  · exact nomatch h.symm.trans herror

lemma pos_of_parseWithin (h : parseWithin limit s = .ok es) : 0 < limit := by
  rcases Nat.eq_zero_or_pos limit with rfl | hpos
  · have hrun := runs_element_zero (σ := Cursor) (Recording.ofCursor (.ofText s)).tokens
      (Recording.ofCursor (.ofText s)).ending
    have herror := evaluate_of_runs (runs_document_error (.error hrun))
    exact nomatch h.symm.trans herror
  · exact hpos

lemma maxDepth_le_of_parseWithin (h : parseWithin limit s = .ok es) : maxDepth es ≤ limit := by
  have hdepth := (elementsWithin_of_parseWithin h).2.2
  have hlevels := blockLevels_le_one (Cursor.ofText s).drain.tokens
  rw [← Nat.lt_succ_iff, maxDepth_lt_iff (Nat.succ_pos limit)]
  intro e he
  have := hdepth e he
  omega

lemma parseWithin_of_elementTrees (hf : (Cursor.ofText s).drain.fault = none)
    (h : ElementTrees (Cursor.ofText s).drain.tokens es) (hd : maxDepth es < limit) :
    parseWithin limit s = .ok es := by
  apply evaluate_of_runs (o := .ok (es, []))
  rw [ending_of_fault_eq_none hf]
  exact runs_document_of_tree h hd _

lemma parseWithin_of_withinLimit (hs : WithinLimit limit s)
    (hf : (Cursor.ofText s).drain.fault = none)
    (h : ElementTrees (Cursor.ofText s).drain.tokens es) : parseWithin limit s = .ok es := by
  have hle : limit ≤ max limit (maxDepth es + 1) := Nat.le_max_left _ _
  have hlt : maxDepth es < max limit (maxDepth es + 1) := by omega
  rw [← parseWithin_of_le hs hle]
  exact parseWithin_of_elementTrees hf h hlt

/-- A text parses exactly when it is read without a fault and its tokens derive a tree that the
limit allows, and that tree is the result. Every tree that is not too deep is allowed. Tokens with
the same words have the same tree, up to where its nodes stand. -/
theorem parseWithin_eq_ok_iff_derived (limit : Nat) (s : Text) :
    (∀ es, parseWithin limit s = .ok es ↔ WithinLimit limit s ∧
      (Cursor.ofText s).drain.fault = none ∧ ElementTrees (Cursor.ofText s).drain.tokens es) ∧
    (∀ es, (Cursor.ofText s).drain.fault = none →
      ElementTrees (Cursor.ofText s).drain.tokens es → maxDepth es < limit →
      WithinLimit limit s) ∧
    (∀ ts us es fs, ElementTrees ts es → ElementTrees us fs →
      us.map Token.word = ts.map Token.word → bareAll fs = bareAll es) ∧
    ((¬ ∃ es, WithinLimit limit s ∧ (Cursor.ofText s).drain.fault = none ∧
      ElementTrees (Cursor.ofText s).drain.tokens es) →
      ∃ fault, parseWithin limit s = .error fault) := by
  have hiff (es : List (Element Span)) : parseWithin limit s = .ok es ↔ WithinLimit limit s ∧
      (Cursor.ofText s).drain.fault = none ∧ ElementTrees (Cursor.ofText s).drain.tokens es := by
    constructor
    · intro h
      obtain ⟨hf, hes⟩ := elementsWithin_of_parseWithin h
      exact ⟨withinLimit_of_ok h, hf, hes.1⟩
    · rintro ⟨hs, hf, hes⟩
      exact parseWithin_of_withinLimit hs hf hes
  refine ⟨hiff, ?_, ?_, ?_⟩
  · intro es hf hes hd
    exact withinLimit_of_ok (parseWithin_of_elementTrees hf hes hd)
  · exact fun ts us es fs => bareAll_unique
  · intro hnone
    cases h : parseWithin limit s with
    | error fault => exact ⟨fault, rfl⟩
    | ok es => exact (hnone ⟨es, (hiff es).mp h⟩).elim

end BraceMarkup
