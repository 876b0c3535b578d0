import BraceMarkup.Element.Grammar
import BraceMarkup.Proofs.Element.Content
import BraceMarkup.Proofs.Text.Parts

namespace BraceMarkup

open Text

lemma Text.trimEnd_trim (s : Text) : s.trim.trimEnd = s.trim :=
  List.rdropWhile_idempotent isBlank _

lemma Text.trim_infix_self (s : Text) : s.trim <:+: s :=
  (List.rdropWhile_prefix isBlank _).isInfix.trans (List.dropWhile_suffix isBlank).isInfix

namespace Element

variable {body first line v : Text} {others : List Text}

def lineContent (margin line : Text) : List Text :=
  (parts (dropMargin margin line)).map trimEnd

lemma blockContent_of_lines (h : body.lines = first :: others) :
    blockContent body = nonblank [first.trim] ++ others.flatMap (lineContent (margin others)) := by
  have hfirst : (nonblank [first.trim]).map trimEnd = nonblank [first.trim] := by
    cases hblank : first.trim.isBlankText with
    | true => rw [nonblank_cons_of_blank hblank]; rfl
    | false =>
      rw [nonblank_cons_of_not_blank hblank]
      exact congrArg (· :: []) (trimEnd_trim first)
  rw [blockContent_eq, blockLines_of_lines h, nonblank_cons, List.map_append, hfirst,
    nonblank_breakLines, parts_unlines, dropMargins_eq, List.flatMap_map, List.map_flatMap]
  rfl

lemma lineContent_of_all {m : Text} (h : line.all isIndent = true) : lineContent m line = [] := by
  rw [lineContent, dropMargin_of_all h]
  rfl

lemma length_lineContent {m : Text} (h : IsMargin m line) :
    (lineContent m line).length = (parts line).length := by
  rw [lineContent, List.length_map, length_parts_dropMargin h]

lemma infix_of_mem_lineContent {m : Text} (hv : v ∈ lineContent m line) : v <:+: line := by
  obtain ⟨w, hw, rfl⟩ := List.mem_map.mp hv
  have htrim : w.trimEnd <+: w := List.rdropWhile_prefix isBlank w
  exact htrim.isInfix.trans ((infix_of_mem_parts hw).trans (dropMargin_suffix m line).isInfix)

lemma parts_length_pos (h : line.isBlankText = false) : 0 < (parts line).length := by
  rw [List.length_pos_iff, Ne, parts_eq_nil_iff, h]
  exact Bool.false_ne_true

lemma length_nonblank_le (lines : List Text) :
    (nonblank lines).length ≤ (lines.flatMap parts).length ∧
    ((lines.flatMap parts).length ≤ (nonblank lines).length →
      ∀ line ∈ lines, (parts line).length ≤ 1) := by
  induction lines with
  | nil => simp
  | cons line lines ih =>
    obtain ⟨hle, hone⟩ := ih
    rw [List.flatMap_cons, List.length_append, List.forall_mem_cons]
    cases hblank : line.isBlankText with
    | true =>
      rw [parts_eq_nil_iff.mpr hblank, nonblank_cons_of_blank hblank, List.length_nil, Nat.zero_add]
      exact ⟨hle, fun h => ⟨Nat.zero_le 1, hone h⟩⟩
    | false =>
      have hpos := parts_length_pos hblank
      rw [nonblank_cons_of_not_blank hblank, List.length_cons]
      exact ⟨by omega, fun h => ⟨by omega, hone (by omega)⟩⟩

lemma length_flatMap_lineContent (others : List Text) :
    (others.flatMap (lineContent (margin others))).length = (others.flatMap parts).length := by
  rw [List.length_flatMap, List.length_flatMap]
  congr 1
  exact List.map_congr_left fun line hline => length_lineContent (isMargin_margin hline)

lemma forall₂_flatMap_nonblank {f : Text → List Text} {lines : List Text}
    (hwithin : ∀ line ∈ lines, ∀ v ∈ f line, v <:+: line)
    (hlength : ∀ line ∈ lines, (f line).length = (parts line).length)
    (hone : ∀ line ∈ lines, (parts line).length ≤ 1) :
    List.Forall₂ (· <:+: ·) (lines.flatMap f) (nonblank lines) := by
  induction lines with
  | nil => exact .nil
  | cons line lines ih =>
    rw [List.forall_mem_cons] at hwithin hlength hone
    have hrest := ih hwithin.2 hlength.2 hone.2
    have hcount := hlength.1
    rw [List.flatMap_cons]
    cases hblank : line.isBlankText with
    | true =>
      rw [parts_eq_nil_iff.mpr hblank, List.length_nil, List.length_eq_zero_iff] at hcount
      rw [hcount, List.nil_append, nonblank_cons_of_blank hblank]
      exact hrest
    | false =>
      have hpos := parts_length_pos hblank
      have hle := hone.1
      obtain ⟨v, hv⟩ := List.length_eq_one_iff.mp (show (f line).length = 1 by omega)
      rw [hv, List.singleton_append, nonblank_cons_of_not_blank hblank]
      exact .cons (hwithin.1 v (by simp [hv])) hrest

lemma forall₂_nonblank_trim (first : Text) :
    List.Forall₂ (· <:+: ·) (nonblank [first.trim]) (nonblank [first]) := by
  have hblank := isBlankText_congr (solid_trim first)
  cases hfirst : first.isBlankText with
  | true =>
    rw [nonblank_cons_of_blank (hblank.trans hfirst), nonblank_cons_of_blank hfirst]
    exact .nil
  | false =>
    rw [nonblank_cons_of_not_blank (hblank.trans hfirst), nonblank_cons_of_not_blank hfirst]
    exact .cons (trim_infix_self first) .nil

lemma forall₂_blockContent_iff (h : body.lines = first :: others) :
    List.Forall₂ (· <:+: ·) (blockContent body) (nonblank body.lines) ↔
      ∀ line ∈ others, (parts line).length ≤ 1 := by
  have hfirst := forall₂_nonblank_trim first
  rw [blockContent_of_lines h, h, nonblank_cons first others]
  constructor
  · intro hall
    have hlength := hall.length_eq
    rw [List.length_append, List.length_append, hfirst.length_eq,
      length_flatMap_lineContent] at hlength
    exact (length_nonblank_le others).2 (by omega)
  · intro hone
    refine List.rel_append hfirst (forall₂_flatMap_nonblank ?_ ?_ hone)
    · exact fun line _ v => infix_of_mem_lineContent
    · exact fun line hline => length_lineContent (isMargin_margin hline)

/-- Each line of the body gives a group of raw lines, all of them found in that line: the first line
gives one if it is not blank, and any other gives as many as it has parts between line breaks that
are not blank. So there is one raw line for each line that is not blank exactly if no line after the
first has two such parts. -/
theorem rawLines_correspond_iff (t : Token) (body : Text) (h : t.body = .ok body) :
    ∃ (first : Text) (others values : List Text) (groups : List (List Text)),
      body.lines = first :: others ∧
      ofBlock t = .tag (blockName t.kind) [] (values.map (.raw · t.span)) t.span ∧
      values = nonblank [first.trim] ++ groups.flatten ∧
      List.Forall₂ (fun line group => group.length = (parts line).length ∧
        ∀ v ∈ group, v <:+: line) others groups ∧
      (List.Forall₂ (· <:+: ·) values (nonblank body.lines) ↔
        ∀ line ∈ others, (parts line).length ≤ 1) := by
  obtain ⟨first, others, hlines⟩ := exists_lines_eq body
  have hbody : t.interior = body := by
    rw [Token.body] at h
    split at h
    · cases h
    · split at h
      · exact Except.ok.inj h
      · cases h
  refine ⟨first, others, blockContent body, others.map (lineContent (margin others)), hlines, ?_, ?_,
    ?_, forall₂_blockContent_iff hlines⟩
  · rw [ofBlock, hbody]
  · rw [blockContent_of_lines hlines, List.flatMap_def]
  · rw [List.forall₂_map_right_iff, List.forall₂_same]
    intro line hline
    exact ⟨length_lineContent (isMargin_margin hline), fun v => infix_of_mem_lineContent⟩

def plainBlock : Token :=
  ⟨.script, "js\x7b a\x0cb\n\n  c\u2028\n\td\x7d".toList, {}⟩

theorem rawLines_correspond_iff_plain : ∃ values : List Text,
    ofBlock plainBlock = .tag "script".toList [] (values.map (.raw · {})) {} ∧
    List.Forall₂ (· <:+: ·) values [" a\x0cb".toList, "  c\u2028".toList, "\td".toList] := by
  obtain ⟨first, others, values, groups, hlines, hblock, -, -, hiff⟩ :=
    rawLines_correspond_iff plainBlock " a\x0cb\n\n  c\u2028\n\td".toList rfl
  obtain ⟨-, rfl⟩ : " a\x0cb".toList = first ∧
      [[], "  c\u2028".toList, "\td".toList] = others := List.cons.inj hlines
  exact ⟨values, hblock, hiff.mpr (by decide)⟩

def formFeedBlock : Token :=
  ⟨.script, "js\x7b\na\x0cb\n\x7d".toList, ⟨0, 9, ⟨1, 1⟩, ⟨3, 1⟩⟩⟩

theorem formFeed_splits_line :
    parse formFeedBlock.lexeme = .ok [ofBlock formFeedBlock] ∧
    formFeedBlock.body = .ok "\na\x0cb\n".toList ∧
    ∃ values : List Text,
      ofBlock formFeedBlock = .tag "script".toList [] (values.map (.raw · formFeedBlock.span))
        formFeedBlock.span ∧
      ¬ List.Forall₂ (· <:+: ·) values (nonblank (Text.lines "\na\x0cb\n".toList)) := by
  refine ⟨by decide +kernel, rfl, ["a".toList, "b".toList], by decide +kernel, fun h => ?_⟩
  have hlength := h.length_eq
  revert hlength
  decide

end Element

end BraceMarkup
