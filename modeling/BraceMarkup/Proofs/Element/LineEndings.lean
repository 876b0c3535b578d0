import BraceMarkup.Proofs.Element.Blocks
import BraceMarkup.Proofs.Element.RawLines
import BraceMarkup.Proofs.Text.Returns

/-! What an embedded block becomes if its newlines are written as a carriage return and a newline.
Only the margin can change: a line that was all indent then counts for it, and if that makes it
shorter, every line keeps the rest of its indent. -/

namespace BraceMarkup

open Text Token Element Grammar

namespace Element

variable {body first k l m r : Text} {ls others : List Text}

lemma lineContent_eq_iff (h : IsMargin (m ++ k) l) (hne : k ≠ []) :
    lineContent m l = lineContent (m ++ k) l ↔ (firstPart l).isBlankText = true := by
  cases hall : l.all isIndent with
  | true =>
    rw [lineContent_of_all hall, lineContent_of_all hall]
    exact iff_of_true rfl (isBlankText_firstPart hall)
  | false =>
    obtain ⟨r, hr⟩ := h.start hall
    have hk : k.all isIndent = true := by
      have hboth := h.all_isIndent
      rw [List.all_append, Bool.and_eq_true] at hboth
      exact hboth.2
    rw [lineContent, lineContent, dropMargin_eq hr hall,
      dropMargin_eq ((List.append_assoc m k r).symm.trans hr) hall,
      map_trimEnd_parts_append_iff hk hne, ← hr, isBlankText_firstPart_append h.all_isIndent]

lemma lineContent_return (h : IsMargin m l) : lineContent m (l ++ ['\r']) = lineContent m l := by
  cases hall : l.all isIndent with
  | true =>
    rw [lineContent_of_all hall, lineContent, List.map_eq_nil_iff, parts_eq_nil_iff,
      isBlankText_congr (solid_dropMargin h.all_isIndent _), ← solid_eq_nil_iff, solid_append,
      solid_eq_nil_iff.mpr (isBlankText_of_all_isIndent hall)]
    decide
  | false =>
    obtain ⟨r, hr⟩ := h.start hall
    have hreturn : m ++ (r ++ ['\r']) = l ++ ['\r'] := by rw [← List.append_assoc, hr]
    rw [lineContent, lineContent, dropMargin_eq hreturn (all_isIndent_return l), parts_return,
      dropMargin_eq hr hall]

lemma flatMap_eq_iff {f g : Text → List Text} (h : ∀ l ∈ ls, (f l).length = (g l).length) :
    ls.flatMap f = ls.flatMap g ↔ ∀ l ∈ ls, f l = g l := by
  induction ls with
  | nil => simp
  | cons l ls ih =>
    obtain ⟨hl, hls⟩ := List.forall_mem_cons.mp h
    rw [List.flatMap_cons, List.flatMap_cons, List.forall_mem_cons, ← ih hls]
    constructor
    · exact fun heq => List.append_inj heq hl
    · rintro ⟨hfirst, hrest⟩
      rw [hfirst, hrest]

lemma blockContent_crlf (h : body.lines = first :: others) :
    blockContent (crlf body) = nonblank [first.trim] ++
      others.flatMap (lineContent (margin (returned others))) := by
  have hlines := lines_crlf body
  rw [h] at hlines
  cases others with
  | nil => exact blockContent_of_lines hlines
  | cons l ls =>
    rw [returned_cons (by simp)] at hlines
    rw [blockContent_of_lines hlines, trim_return, flatMap_returned]
    exact fun l hl => lineContent_return (isMargin_margin_returned hl)

lemma blockContent_crlf_eq_iff (h : body.lines = first :: others) :
    blockContent (crlf body) = blockContent body ↔
      (∀ line ∈ others.dropLast, line.all isIndent = true → margin others <+: line) ∨
        ∀ line ∈ others, (firstPart line).isBlankText = true := by
  have hlength : ∀ l ∈ others, (lineContent (margin (returned others)) l).length =
      (lineContent (margin others) l).length := fun l hl =>
    (length_lineContent (isMargin_margin_returned hl)).trans
      (length_lineContent (isMargin_margin hl)).symm
  rw [blockContent_crlf h, blockContent_of_lines h, List.append_cancel_left_eq,
    flatMap_eq_iff hlength]
  by_cases hsome : ∃ l ∈ others, l.all isIndent = false
  · rw [← margin_returned_eq_iff hsome]
    by_cases heq : margin (returned others) = margin others
    · rw [heq]
      exact iff_of_true (fun _ _ => rfl) (.inl rfl)
    · -- The margin has become shorter, and every line keeps the rest of its indent.
      rw [or_iff_right heq]
      obtain ⟨k, hk⟩ := margin_returned_le hsome
      have hne : k ≠ [] := by
        rintro rfl
        exact heq (by rw [← hk, List.append_nil])
      apply forall₂_congr
      intro l hl
      have hmargin := isMargin_margin hl
      rw [← hk] at hmargin ⊢
      exact lineContent_eq_iff hmargin hne
  · -- No line has a margin to lose.
    have hall : ∀ l ∈ others, l.all isIndent = true := by
      intro l hl
      by_contra hnot
      exact hsome ⟨l, hl, Bool.eq_false_iff.mpr hnot⟩
    refine iff_of_true (fun l hl => ?_) (.inr fun l hl => isBlankText_firstPart (hall l hl))
    rw [lineContent_of_all (hall l hl), lineContent_of_all (hall l hl)]

lemma canonicalAll_raws (vs : List Text) (span : Span) :
    canonicalAll (bareAll (vs.map (.raw · span))) = vs.map (.raw · ()) := by
  induction vs with
  | nil => rfl
  | cons v vs ih => simp [bareAll, bare, canonicalAll, canonical, ih]

lemma sameAll_ofBlock_iff {t u : Token} (hk : t.kind = u.kind) :
    sameAll [ofBlock t] [ofBlock u] = true ↔
      blockContent t.interior = blockContent u.interior := by
  have hraw : Function.Injective fun v : Text => Element.raw v () := fun v w h => by
    injection h
  rw [sameAll, decide_eq_true_iff]
  simp only [bareAll, bare, ofBlock, canonicalAll, canonical, canonicalAll_raws, hk,
    List.map_inj_right hraw, List.cons.injEq, Element.tag.injEq, and_true, true_and]

end Element

lemma Token.Balanced.crlf {s : Text} (h : Balanced openBrace closeBrace s) :
    Balanced openBrace closeBrace s.crlf := by
  induction h with
  | nil => exact .nil
  | @other c s ho hc _ ih =>
    by_cases hnew : c = '\n'
    · subst hnew
      exact .other (by decide) (by decide) (.other ho hc ih)
    · rw [crlf_cons_of_ne hnew]
      exact .other ho hc ih
  | @nested s t _ _ ihs iht =>
    rw [crlf_append, crlf_cons_of_ne (by decide), crlf_cons_of_ne (by decide)]
    exact .nested ihs iht

/-- The two ways to write the newlines of a script or style block give the same tree exactly if each
line of indent between its lines starts with the margin, or if no line after the first has anything
but blanks in front of its first line break. -/
theorem parse_crlf_same_iff (name : Text) (kind : Kind) (body : Text)
    (hname : embeddedKind? name = some kind) (hb : Balanced openBrace closeBrace body) :
    ∃ es fs, parse (name ++ openBrace :: body ++ [closeBrace]) = .ok es ∧
      parse (name ++ openBrace :: crlf body ++ [closeBrace]) = .ok fs ∧
      (sameAll es fs = true ↔
        (∀ line ∈ body.lines.tail.dropLast, line.all isIndent = true →
          margin body.lines.tail <+: line) ∨
        ∀ line ∈ body.lines.tail, (firstPart line).isBlankText = true) := by
  obtain ⟨t, ht, htkind, hparse⟩ := parse_block hname hb
  obtain ⟨u, hu, hukind, hparse'⟩ := parse_block hname hb.crlf
  obtain ⟨first, others, hlines⟩ := exists_lines_eq body
  refine ⟨_, _, hparse, hparse', ?_⟩
  rw [sameAll_ofBlock_iff (htkind.trans hukind.symm), ht.interior_eq, hu.interior_eq, eq_comm,
    blockContent_crlf_eq_iff hlines, hlines]
  rfl

def steadyBody : Text :=
  " if (a) \x7b\n\t b\n\t \n\t   c\n\t \x7d\n ".toList

theorem parse_crlf_same_iff_steady :
    ∃ es fs, parse ("css".toList ++ openBrace :: steadyBody ++ [closeBrace]) = .ok es ∧
      parse ("css".toList ++ openBrace :: crlf steadyBody ++ [closeBrace]) = .ok fs ∧
      sameAll es fs = true := by
  obtain ⟨es, fs, hes, hfs, hiff⟩ :=
    parse_crlf_same_iff "css".toList .style steadyBody rfl (.of_reading (by decide))
  exact ⟨es, fs, hes, hfs, hiff.mpr (.inl (by decide))⟩

def gappedBody : Text :=
  "\n    a\n\n    b\n".toList

theorem crlf_keeps_indent :
    Balanced openBrace closeBrace gappedBody ∧ '\r' ∉ gappedBody ∧
    ∃ es fs, parse ("js".toList ++ openBrace :: gappedBody ++ [closeBrace]) = .ok es ∧
      parse ("js".toList ++ openBrace :: crlf gappedBody ++ [closeBrace]) = .ok fs ∧
      sameAll es fs = false := by
  have hb : Balanced openBrace closeBrace gappedBody := .of_reading (by decide)
  have hname : embeddedKind? "js".toList = some .script := rfl
  obtain ⟨t, ht, htkind, hparse⟩ := parse_block hname hb
  obtain ⟨u, hu, hukind, hparse'⟩ := parse_block hname hb.crlf
  refine ⟨hb, by decide, _, _, hparse, hparse', ?_⟩
  rw [Bool.eq_false_iff, Ne, sameAll_ofBlock_iff (htkind.trans hukind.symm), ht.interior_eq,
    hu.interior_eq]
  decide

end BraceMarkup
