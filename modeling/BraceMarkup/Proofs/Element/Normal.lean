import BraceMarkup.Proofs.Element.Blocks
import BraceMarkup.Proofs.Element.RawLines

namespace BraceMarkup

open Text Token

namespace Text

variable {line m p s v : Text} {ls : List Text}

def PlainLine (line : Text) : Prop :=
  ∀ c ∈ line, isBlank c = true → isIndent c = true

namespace PlainLine

lemma of_subset (h : PlainLine line) (hv : v ⊆ line) : PlainLine v :=
  fun c hc => h c (hv hc)

lemma isBlankText_eq (h : PlainLine line) : line.isBlankText = line.all isIndent := by
  rw [Bool.eq_iff_iff]
  constructor
  · intro hblank
    exact List.all_eq_true.mpr fun c hc => h c hc (List.all_eq_true.mp hblank c hc)
  · exact isBlankText_of_all_isIndent

lemma parts_eq (h : PlainLine line) : parts line = nonblank [line] := by
  have hbreaks : ∀ c ∈ line, isLineBreak c = false := by
    intro c hc
    cases hbreak : isLineBreak c with
    | false => rfl
    | true =>
      have hindent := h c hc (isBlank_of_isLineBreak hbreak)
      rw [isLineBreak_of_isIndent hindent] at hbreak
      exact hbreak.symm
  rw [parts, List.splitOnP_eq_singleton hbreaks]

end PlainLine

lemma takeWhile_isIndent_trim (s : Text) : s.trim.takeWhile isIndent = [] := by
  cases htrim : s.trim with
  | nil => rfl
  | cons c t =>
    have hstart : s.trim <+: s.dropWhile isBlank := List.rdropWhile_prefix isBlank _
    rw [htrim] at hstart
    obtain ⟨rest, hrest⟩ := hstart
    have hhead : isBlank c = false := by
      have hdrop := List.head?_dropWhile_not isBlank s
      rw [← hrest] at hdrop
      exact hdrop
    apply List.takeWhile_cons_of_neg
    intro hindent
    rw [isBlank_of_isIndent hindent] at hhead
    cases hhead

lemma prefix_takeWhile (hp : p.all isIndent = true) (h : p <+: line) :
    p <+: line.takeWhile isIndent := by
  obtain ⟨rest, rfl⟩ := h
  rw [List.takeWhile_append_of_pos (List.all_eq_true.mp hp)]
  exact List.prefix_append p _

lemma margin_concat_nil (ls : List Text) : margin (ls ++ [[]]) = margin ls := by
  have hmargin : margin? (ls ++ [[]]) = margin? ls := by
    induction ls with
    | nil => rfl
    | cons l ls ih => rw [List.cons_append, margin?, margin?, ih]
  rw [margin, margin, hmargin]

end Text

namespace Element

variable {body first line m v : Text} {ls others values : List Text}

lemma exists_lineContent (hplain : PlainLine line) (hm : IsMargin m line)
    (hblank : line.isBlankText = false) :
    ∃ v, lineContent m line = [v] ∧ m ++ v = line.trimEnd := by
  have hline := append_dropMargin (hm.start (hplain.isBlankText_eq ▸ hblank))
    (hplain.isBlankText_eq ▸ hblank)
  have hrest := hplain.of_subset (dropMargin_suffix m line).subset
  have hnot : (dropMargin m line).isBlankText = false := by
    rw [isBlankText_congr (solid_dropMargin hm.all_isIndent line), hblank]
  refine ⟨(dropMargin m line).trimEnd, ?_, ?_⟩
  · rw [lineContent, hrest.parts_eq, nonblank_cons_of_not_blank hnot]
    rfl
  · rw [← trimEnd_append_of_not_blank m hnot, hline]

lemma map_append_lineContent (hplain : ∀ line ∈ ls, PlainLine line)
    (hm : ∀ line ∈ ls, IsMargin m line) :
    (ls.flatMap (lineContent m)).map (m ++ ·) = (nonblank ls).map trimEnd := by
  induction ls with
  | nil => rfl
  | cons line ls ih =>
    rw [List.forall_mem_cons] at hplain hm
    rw [List.flatMap_cons, List.map_append, ih hplain.2 hm.2]
    cases hblank : line.isBlankText with
    | true =>
      rw [lineContent_of_all (hplain.1.isBlankText_eq ▸ hblank), nonblank_cons_of_blank hblank]
      rfl
    | false =>
      obtain ⟨v, hv, hline⟩ := exists_lineContent hplain.1 hm.1 hblank
      rw [hv, nonblank_cons_of_not_blank hblank, List.map_cons (f := trimEnd), ← hline]
      rfl

/-- Raw lines that are written as they are. -/
structure Normal (values : List Text) : Prop where
  plain : ∀ v ∈ values, PlainLine v
  newline : ∀ v ∈ values, '\n' ∉ v
  not_blank : ∀ v ∈ values, v.isBlankText = false
  trimEnd_eq : ∀ v ∈ values, v.trimEnd = v
  margin_eq : margin values = []

lemma Normal.lineContent_eq (h : Normal values) (hv : v ∈ values) : lineContent [] v = [v] := by
  obtain ⟨w, hw, htrim⟩ := exists_lineContent (h.plain v hv) ⟨rfl, fun _ => List.nil_prefix⟩
    (h.not_blank v hv)
  rw [List.nil_append, h.trimEnd_eq v hv] at htrim
  rw [hw, htrim]

def bodyOf (values : List Text) : Text :=
  '\n' :: unlines values ++ ['\n']

lemma Normal.blockContent_bodyOf (h : Normal values) : blockContent (bodyOf values) = values := by
  by_cases hne : values = []
  · rw [hne]
    rfl
  · have hlines : (bodyOf values).lines = [] :: (values ++ [[]]) := by
      have hinner : (unlines values ++ ['\n']).lines = (unlines values).lines ++ [[]] :=
        List.splitOn_append_cons_self _ _
      rw [lines_unlines hne h.newline] at hinner
      rw [bodyOf, List.cons_append, lines_newline_cons, hinner]
    rw [blockContent_of_lines hlines, margin_concat_nil, h.margin_eq, List.flatMap_append]
    have hsame : values.flatMap (lineContent []) = values := by
      rw [List.flatMap_congr fun v hv => h.lineContent_eq hv]
      exact List.flatMap_singleton' values
    rw [hsame]
    exact List.append_nil values

lemma exists_line_of_mem_blockContent (hv : v ∈ blockContent body) :
    ∃ line ∈ body.lines, v <:+: line := by
  obtain ⟨first, others, hlines⟩ := exists_lines_eq body
  rw [blockContent_of_lines hlines] at hv
  rw [hlines]
  rcases List.mem_append.mp hv with hv | hv
  · obtain rfl : v = first.trim := List.mem_singleton.mp (List.mem_filter.mp hv).1
    exact ⟨first, List.mem_cons_self, trim_infix_self first⟩
  · obtain ⟨line, hline, hv⟩ := List.mem_flatMap.mp hv
    exact ⟨line, List.mem_cons_of_mem first hline, infix_of_mem_lineContent hv⟩

section Plain

variable (hbody : ∀ line ∈ body.lines, PlainLine line)
include hbody

lemma margin_blockContent : margin (blockContent body) = [] := by
  obtain ⟨first, others, hlines⟩ := exists_lines_eq body
  have hstart : ∀ v ∈ blockContent body, margin (blockContent body) <+: v.takeWhile isIndent := by
    intro v hv
    apply margin_prefix_takeWhile hv
    cases hall : v.all isIndent with
    | false => rfl
    | true =>
      have hblank := isBlankText_of_mem_blockContent hv
      rw [isBlankText_of_all_isIndent hall] at hblank
      exact hblank
  have hcontent := blockContent_of_lines hlines
  rw [hlines, List.forall_mem_cons] at hbody
  cases hfirst : first.trim.isBlankText with
  | false =>
    rw [nonblank_cons_of_not_blank hfirst] at hcontent
    have hnone := hstart first.trim (by rw [hcontent]; exact List.mem_cons_self)
    rw [takeWhile_isIndent_trim] at hnone
    exact List.prefix_nil.mp hnone
  | true =>
    rw [nonblank_cons_of_blank hfirst, nonblank_nil, List.nil_append] at hcontent
    by_cases hsome : ∃ line ∈ others, line.all isIndent = false
    · -- An indent that they share would have been part of the margin.
      have hmore : margin others ++ margin (blockContent body) <+: margin others := by
        rw [prefix_margin_iff hsome]
        intro line hline hnot
        obtain ⟨v, hv, htrim⟩ := exists_lineContent (hbody.2 line hline) (isMargin_margin hline)
          ((hbody.2 line hline).isBlankText_eq ▸ hnot)
        have hmem : v ∈ blockContent body := by
          rw [hcontent]
          exact List.mem_flatMap_of_mem hline (by rw [hv]; exact List.mem_cons_self)
        apply prefix_takeWhile
        · rw [List.all_append, all_isIndent_margin, all_isIndent_margin]
          rfl
        · have hv := (hstart v hmem).trans (List.takeWhile_prefix isIndent)
          have hboth := (List.prefix_append_right_inj (margin others)).mpr hv
          rw [htrim] at hboth
          exact hboth.trans (List.rdropWhile_prefix isBlank line)
      have hlength := hmore.length_le
      rw [List.length_append] at hlength
      exact List.length_eq_zero_iff.mp (by omega)
    · have hnil : blockContent body = [] := by
        rw [hcontent, List.flatMap_eq_nil_iff]
        intro line hline
        apply lineContent_of_all
        by_contra hnot
        exact hsome ⟨line, hline, Bool.eq_false_iff.mpr hnot⟩
      rw [hnil]
      rfl

lemma normal_blockContent : Normal (blockContent body) where
  plain v hv := by
    obtain ⟨line, hline, hin⟩ := exists_line_of_mem_blockContent hv
    exact (hbody line hline).of_subset hin.subset
  newline v hv := by
    obtain ⟨line, hline, hin⟩ := exists_line_of_mem_blockContent hv
    exact fun hnew => not_mem_of_mem_lines hline (hin.subset hnew)
  not_blank v hv := isBlankText_of_mem_blockContent hv
  trimEnd_eq v hv := by
    obtain ⟨line, -, rfl⟩ := List.mem_map.mp hv
    exact List.rdropWhile_idempotent isBlank line
  margin_eq := margin_blockContent hbody

end Plain

lemma solid_bodyOf (values : List Text) : solid (bodyOf values) = solid values.flatten := by
  rw [bodyOf, solid_append, solid_cons_of_isBlank (by decide), solid_unlines]
  exact List.append_nil _

end Element

open Element

/-- A script or style block with no blanks but spaces, tabs and newlines parses. There is one margin
of spaces and tabs, the longest that the lines after the first share, which in front of the raw
lines gives back those lines that are not blank, without the blanks at their ends. The raw lines on
lines of their own parse as a block with the same raw lines. -/
theorem parse_block_normal (name : Text) (kind : Kind) (body : Text)
    (hname : embeddedKind? name = some kind) (hb : Balanced openBrace closeBrace body)
    (hblanks : ∀ c ∈ body, isBlank c = true → c ∈ [' ', '\t', '\n']) :
    ∃ (values : List Text) (span span' : Span),
      parse (name ++ openBrace :: body ++ [closeBrace]) =
        .ok [.tag (blockName kind) [] (values.map (.raw · span)) span] ∧
      (∃ (m first : Text) (others indented : List Text), body.lines = first :: others ∧
        m.all isIndent = true ∧ values = nonblank [first.trim] ++ indented ∧
        indented.map (m ++ ·) = (nonblank others).map trimEnd ∧
        (nonblank others ≠ [] → ∀ p : Text, p.all isIndent = true →
          (∀ line ∈ nonblank others, p <+: line) → p <+: m)) ∧
      parse (name ++ openBrace :: ('\n' :: unlines values ++ ['\n']) ++ [closeBrace]) =
        .ok [.tag (blockName kind) [] (values.map (.raw · span')) span'] := by
  have hplain : ∀ line ∈ body.lines, PlainLine line := by
    intro line hline c hc hblank
    have hcases := hblanks c ((infix_of_mem_lines hline).subset hc) hblank
    have hnew : c ≠ '\n' := fun heq => not_mem_of_mem_lines hline (heq ▸ hc)
    simp only [List.mem_cons, List.not_mem_nil, hnew, or_false] at hcases
    rcases hcases with rfl | rfl
    · rfl
    · rfl
  have hnormal := normal_blockContent hplain
  have hb' : Balanced openBrace closeBrace (bodyOf (blockContent body)) :=
    hb.of_solid_eq ((solid_bodyOf _).trans (solid_flatten_blockContent body))
  obtain ⟨t, ht, rfl, hparse⟩ := parse_block hname hb
  obtain ⟨u, hu, hkind, hparse'⟩ := parse_block hname hb'
  obtain ⟨first, others, hlines⟩ := exists_lines_eq body
  refine ⟨blockContent body, t.span, u.span, ?_, ⟨margin others, first, others, _, hlines,
    all_isIndent_margin others, blockContent_of_lines hlines, ?_, ?_⟩, ?_⟩
  · rw [hparse, ofBlock, ht.interior_eq]
  · rw [hlines, List.forall_mem_cons] at hplain
    exact map_append_lineContent hplain.2 fun line hline => isMargin_margin hline
  · intro hne p hp hall
    rw [hlines, List.forall_mem_cons] at hplain
    have hnonblank {line : Text} (hline : line ∈ others) (hnot : line.all isIndent = false) :
        line ∈ nonblank others :=
      List.mem_filter.mpr ⟨hline, by simp [(hplain.2 line hline).isBlankText_eq, hnot]⟩
    obtain ⟨line, hline⟩ := List.exists_mem_of_ne_nil _ hne
    have hmem := (List.mem_filter.mp hline).1
    have hnot := isBlankText_of_mem_nonblank hline
    rw [(hplain.2 line hmem).isBlankText_eq] at hnot
    rw [prefix_margin_iff ⟨line, hmem, hnot⟩]
    intro line hline hnot
    exact prefix_takeWhile hp (hall line (hnonblank hline hnot))
  · rw [← bodyOf, hparse', ofBlock, hu.interior_eq, hkind, hnormal.blockContent_bodyOf]

def tabbedBody : Text :=
  " a \n\t  if (b) \x7b  \n \n\t \tc\n\t  \x7d\n\t\t".toList

theorem parse_block_normal_tabbed : ∃ (m : Text) (values : List Text) (span span' : Span),
    parse ("js".toList ++ openBrace :: tabbedBody ++ [closeBrace]) =
      .ok [.tag "script".toList [] (values.map (.raw · span)) span] ∧
    values.tail.map (m ++ ·) =
      ["\t  if (b) \x7b".toList, "\t \tc".toList, "\t  \x7d".toList] ∧
    parse ("js".toList ++ openBrace :: ('\n' :: unlines values ++ ['\n']) ++ [closeBrace]) =
      .ok [.tag "script".toList [] (values.map (.raw · span')) span'] := by
  have hblanks : tabbedBody.all (fun c => !isBlank c || [' ', '\t', '\n'].contains c) = true := by
    decide
  obtain ⟨values, span, span', hparse, ⟨m, first, others, indented, hlines, -, hvalues, hlines', -⟩,
      hparse'⟩ := parse_block_normal "js".toList .script tabbedBody rfl (.of_reading (by decide))
    fun c hc hblank => by simpa [hblank] using List.all_eq_true.mp hblanks c hc
  obtain ⟨rfl, rfl⟩ : " a ".toList = first ∧ ["\t  if (b) \x7b  ".toList, " ".toList,
      "\t \tc".toList, "\t  \x7d".toList, "\t\t".toList] = others := List.cons.inj hlines
  refine ⟨m, values, span, span', hparse, ?_, hparse'⟩
  rw [hvalues]
  exact hlines'

end BraceMarkup
