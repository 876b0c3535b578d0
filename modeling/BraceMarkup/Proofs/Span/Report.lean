import BraceMarkup.Proofs.Span.Places
import BraceMarkup.Span.Report

namespace BraceMarkup

namespace Text

lemma ofInt_natCast (n : Nat) : ofInt n = Nat.toDigits 10 n := by
  rw [ofInt, Int.toString_eq_repr, Int.repr_eq_if, if_pos (Int.natCast_nonneg n), Int.toNat_natCast,
    Nat.repr_eq_ofList_toDigits, String.toList_ofList]

lemma not_mem_ofInt {n : Int} {c : Char} (hn : 0 ≤ n) (hc : c.isDigit = false) : c ∉ ofInt n := by
  lift n to ℕ using hn
  rw [ofInt_natCast]
  intro hmem
  have hdigit := Nat.isDigit_of_mem_toDigits (by omega) (by omega) hmem
  rw [hc] at hdigit
  cases hdigit

lemma length_ofInt_mono {m n : Int} (hm : 0 ≤ m) (h : m ≤ n) :
    (ofInt m).length ≤ (ofInt n).length := by
  lift n to ℕ using hm.trans h
  lift m to ℕ using hm
  rw [ofInt_natCast, ofInt_natCast]
  have hn := (Nat.length_toDigits_le_iff (by omega) Nat.length_toDigits_pos).mp
    (le_refl (Nat.toDigits 10 n).length)
  apply (Nat.length_toDigits_le_iff (by omega) Nat.length_toDigits_pos).mpr
  omega

lemma length_alignRight {width : Nat} {s : Text} (h : s.length ≤ width) :
    (alignRight width s).length = width := by
  rw [alignRight, List.length_append, List.length_replicate]
  omega

lemma dropEnd_prefix (p : Char → Bool) (s : Text) : dropEnd p s <+: s := by
  have hsuffix := List.dropWhile_suffix p (l := s.reverse)
  rw [← List.reverse_prefix, List.reverse_reverse] at hsuffix
  exact hsuffix

lemma prefix_dropEnd_append {p : Char → Bool} {x : Text} (hx : x ≠ []) (hp : ∀ c ∈ x, p c = false)
    (y : Text) (start : Text) : start ++ x <+: dropEnd p (start ++ x ++ y) := by
  have hwhole : (start ++ x).reverse.dropWhile p = (start ++ x).reverse := by
    obtain ⟨front, c, rfl⟩ := (List.eq_nil_or_concat' x).resolve_left hx
    have hc := hp c (by simp)
    rw [← List.append_assoc, List.reverse_append, List.reverse_singleton, List.singleton_append,
      List.dropWhile_cons_of_neg (by simp [hc])]
  rw [dropEnd, List.reverse_append, List.dropWhile_append, hwhole]
  split
  · rw [List.reverse_reverse]
  · rw [List.reverse_append, List.reverse_reverse]
    exact List.prefix_append _ _

end Text

namespace Span

variable {s : Text} {p : Span}

def quote (width : Nat) (n : Int) (line : Text) : Text :=
  Text.alignRight width (Text.ofInt n) ++ " | ".toList ++ Text.dropEnd (· = '\r') line

lemma not_mem_label {p : Place} (hline : 0 ≤ p.line) (hcolumn : 0 ≤ p.column) : '\n' ∉ p.label := by
  rw [Place.label, List.mem_append, List.mem_cons, not_or, not_or]
  exact ⟨Text.not_mem_ofInt hline rfl, by decide, Text.not_mem_ofInt hcolumn rfl⟩

lemma not_mem_quote {width : Nat} {n : Int} {line : Text} (hn : 0 ≤ n) (h : '\n' ∉ line) :
    '\n' ∉ quote width n line := by
  have hquoted : '\n' ∉ Text.dropEnd (· = '\r') line :=
    fun hmem => h ((Text.dropEnd_prefix _ line).subset hmem)
  have hnumber := Text.not_mem_ofInt hn (rfl : '\n'.isDigit = false)
  simp [quote, Text.alignRight, hquoted, hnumber]

lemma take_drop_quote {width : Nat} {n : Int} {start x y : Text}
    (hnumber : (Text.ofInt n).length ≤ width) (hx : x ≠ []) (hreturn : '\r' ∉ x) :
    ((quote width n (start ++ x ++ y)).drop (width + 3 + start.length)).take x.length = x := by
  have hkept : ∀ c ∈ x, decide (c = '\r') = false := by
    intro c hc
    exact decide_eq_false fun h => hreturn (h ▸ hc)
  obtain ⟨z, hz⟩ := Text.prefix_dropEnd_append hx hkept y start
  have hlength : (Text.alignRight width (Text.ofInt n) ++ " | ".toList ++ start).length =
      width + 3 + start.length := by
    rw [List.length_append, List.length_append, Text.length_alignRight hnumber]
    rfl
  rw [quote, ← hz, List.append_assoc start, ← List.append_assoc, List.drop_left' hlength,
    List.take_left]

namespace Layout

variable (v : p.Layout s)
include v

lemma line_nonneg : 0 ≤ p.first.line ∧ p.first.line ≤ p.last.line := by
  rw [v.first_line, v.last_line]
  omega

lemma header_eq : p.header =
    p.first.label ++ if 1 < p.length then " to ".toList ++ p.last.label else [] := by
  have hsingle := v.isSingle_iff
  have hlength := v.length_eq
  rw [header]
  by_cases h : p.isSingle = true
  · rw [if_pos h, if_neg (by have := hsingle.mp h; omega), List.append_nil, label]
  · have hlong : 1 < p.length := by
      have := mt hsingle.mpr h
      omega
    rw [if_neg h, if_pos hlong, label, List.append_assoc]

lemma numbered_eq {shown later : List Text} (hlines : s.lines = v.earlier ++ (shown ++ later))
    (hshown : shown.length = v.full.length + 1) :
    p.lineNumbers.map (p.numbered s.lines) =
      shown.mapIdx fun k line => quote p.gutterWidth (p.first.line + k) line := by
  have hcount : (p.last.line - p.first.line + 1).toNat = shown.length := by
    rw [v.first_line, v.last_line, hshown]
    omega
  rw [lineNumbers, hcount]
  apply List.ext_getElem (by simp)
  intro k _ hk
  rw [List.length_mapIdx] at hk
  have hline : (p.first.line + (k : Int) - 1).toNat = v.earlier.length + k := by
    rw [v.first_line]
    omega
  have hget : s.lines.getD (v.earlier.length + k) [] = shown[k] := by
    rw [hlines, List.getD_eq_getElem?_getD, List.getElem?_append_right (Nat.le_add_right _ _),
      Nat.add_sub_cancel_left, List.getElem?_append_left hk, List.getElem?_eq_getElem hk,
      Option.getD_some]
  have hpos : 0 < p.first.line + (k : Int) := by
    rw [v.first_line]
    omega
  simp only [List.getElem_map, List.getElem_range, List.getElem_mapIdx]
  rw [numbered, quotedLine, if_pos hpos, hline, hget, quote]

lemma length_number_le {n : Nat} (h : p.first.line + n ≤ p.last.line) :
    (Text.ofInt (p.first.line + n)).length ≤ p.gutterWidth := by
  have hline := v.line_nonneg
  exact Text.length_ofInt_mono (by omega) h

lemma lines_report {shown later : List Text} (hlines : s.lines = v.earlier ++ (shown ++ later))
    (hshown : shown.length = v.full.length + 1) :
    (p.report s).lines = [p.header, p.pointer] ++
      shown.mapIdx (fun k line => quote p.gutterWidth (p.first.line + k) line) ++ [p.gutter] := by
  rw [← v.numbered_eq hlines hshown]
  apply Text.lines_unlines (List.append_ne_nil_of_right_ne_nil _ (List.cons_ne_nil _ _))
  have hline := v.line_nonneg
  have hgutter : '\n' ∉ p.gutter := by simp [gutter]
  intro l hl
  rw [v.numbered_eq hlines hshown, List.mem_append, List.mem_append] at hl
  rcases hl with (hl | hl) | hl
  · have hfirst : '\n' ∉ p.first.label := by
      apply not_mem_label hline.1
      rw [v.first_column]
      omega
    have hlast : '\n' ∉ p.last.label := by
      apply not_mem_label (hline.1.trans hline.2)
      rw [v.last_column]
      omega
    rcases List.mem_pair.mp hl with rfl | rfl
    · rw [v.header_eq]
      split <;> simp [hfirst, hlast]
    · simp [pointer, marks, hgutter]
  · obtain ⟨k, hk, rfl⟩ := List.mem_mapIdx.mp hl
    apply not_mem_quote (by omega)
    apply Text.not_mem_of_mem_lines (s := s)
    rw [hlines, List.mem_append, List.mem_append]
    exact .inr (.inl (List.getElem_mem hk))
  · rwa [List.mem_singleton.mp hl]

lemma exists_first_shown {shown later : List Text} {x tail : Text}
    (hlines : s.lines = v.earlier ++ (shown ++ later)) (hshown : shown.length = v.full.length + 1)
    (htext : v.held ++ v.rest = x ++ tail) (hx : '\n' ∉ x) :
    ∃ y more, shown = (v.start ++ x ++ y) :: more := by
  obtain ⟨first, more, rfl⟩ := List.exists_cons_of_length_eq_add_one hshown
  have hfree : '\n' ∉ v.start ++ x := List.not_mem_append v.start_free hx
  obtain ⟨y, others, hline⟩ := Text.exists_first_line hfree tail
  rw [v.lines_eq, htext, ← List.append_assoc, hline, List.append_cancel_left_eq,
    List.cons_append, List.cons.injEq] at hlines
  exact ⟨y, more, by rw [hlines.1]⟩

lemma take_drop_quoted {shown later : List Text} {x tail quoted : Text}
    (hlines : s.lines = v.earlier ++ (shown ++ later)) (hshown : shown.length = v.full.length + 1)
    (htext : v.held ++ v.rest = x ++ tail) (hne : x ≠ []) (hnewline : '\n' ∉ x) (hreturn : '\r' ∉ x)
    (hquoted : (p.report s).lines[2]? = some quoted) :
    (quoted.drop (p.gutter ++ List.replicate p.first.column.toNat ' ').length).take x.length =
      x := by
  obtain ⟨y, more, hfirst⟩ := v.exists_first_shown hlines hshown htext hnewline
  have hnumber : (Text.ofInt p.first.line).length ≤ p.gutterWidth :=
    Text.length_ofInt_mono v.line_nonneg.1 v.line_nonneg.2
  have hmargin : (p.gutter ++ List.replicate p.first.column.toNat ' ').length =
      p.gutterWidth + 3 + v.start.length := by
    have hcolumn := v.first_column
    rw [gutter, List.length_append, List.length_append, List.length_replicate,
      List.length_replicate]
    show p.gutterWidth + 2 + p.first.column.toNat = _
    omega
  obtain rfl : quote p.gutterWidth p.first.line (v.start ++ x ++ y) = quoted := by
    rw [v.lines_report hlines hshown, hfirst] at hquoted
    simpa using hquoted
  rw [hmargin]
  exact take_drop_quote hnumber hne hreturn

lemma text_of_stop_le (h : p.stop ≤ s.length) :
    ∃ c tail, v.held ++ v.rest = v.held ++ [c] ++ tail ∧ p.text s = v.held ++ [c] := by
  have hstop : p.stop = v.before.length + (v.held.length + 1) := by
    rw [stop, v.idx_eq, v.length_eq]
  have hsource := congrArg List.length v.source_eq
  rw [List.length_append, List.length_append] at hsource
  obtain ⟨c, tail, hrest⟩ := List.exists_cons_of_length_pos (l := v.rest) (by omega)
  refine ⟨c, tail, by rw [hrest, List.append_cons], ?_⟩
  have hslice := Text.slice_of_append v.before (v.held ++ [c]) tail
  rw [← List.append_cons v.held c tail, ← hrest, ← v.source_eq, List.length_append,
    List.length_singleton, Nat.cast_add, Nat.cast_one, ← hstop, ← v.idx_eq] at hslice
  exact hslice

lemma markCount_of_one_line (h : p.first.line = p.last.line) : p.markCount = p.length := by
  rw [markCount, if_pos h, v.first_column, v.last_column, v.last_of_one_line h, v.length_eq,
    List.length_append]
  omega

lemma marked_of_one_line {shown later : List Text} {quoted : Text}
    (hlines : s.lines = v.earlier ++ (shown ++ later)) (hshown : shown.length = v.full.length + 1)
    (hline : p.first.line = p.last.line) (hquoted : (p.report s).lines[2]? = some quoted)
    (hinside : p.stop ≤ s.length) (hreturn : '\r' ∉ p.text s) (hnewline : '\n' ∉ p.text s) :
    (quoted.drop (p.gutter ++ List.replicate p.first.column.toNat ' ').length).take
      p.markCount.toNat = p.text s := by
  obtain ⟨c, tail, hrest, htext⟩ := v.text_of_stop_le hinside
  have hcount : p.markCount.toNat = (v.held ++ [c]).length := by
    rw [v.markCount_of_one_line hline, v.length_eq, List.length_append, List.length_singleton]
    omega
  rw [htext] at hreturn hnewline ⊢
  rw [hcount]
  exact v.take_drop_quoted hlines hshown hrest (by simp) hnewline hreturn hquoted

lemma marked_first {shown later : List Text} {quoted : Text} {c : Char}
    (hlines : s.lines = v.earlier ++ (shown ++ later)) (hshown : shown.length = v.full.length + 1)
    (hquoted : (p.report s).lines[2]? = some quoted) (hc : s[p.idx.toNat]? = some c)
    (hreturn : c ≠ '\r') (hnewline : c ≠ '\n') :
    (quoted.drop (p.gutter ++ List.replicate p.first.column.toNat ' ').length).take 1 = [c] := by
  have hrest : v.held ++ v.rest = [c] ++ (v.held ++ v.rest).tail := by
    rw [v.source_eq, v.idx_eq, Int.toNat_natCast, List.getElem?_append_right (le_refl _),
      Nat.sub_self] at hc
    cases htext : v.held ++ v.rest with
    | nil => simp [htext] at hc
    | cons d tail => simpa [htext] using hc
  exact v.take_drop_quoted hlines hshown hrest (by simp) (by simpa using Ne.symm hnewline)
    (by simpa using Ne.symm hreturn) hquoted

lemma report?_eq (hfirst : p.first = s.placeAt p.idx.toNat) (h : fitsWord (s.length + 1) = true) :
    p.report? s = .ok (p.report s) := by
  have hsource := congrArg List.length v.source_eq
  rw [List.length_append, List.length_append] at hsource
  have hidx := v.idx_eq
  have hlength := v.length_eq
  have hmarks : 0 ≤ p.markCount ∧ p.markCount ≤ s.length + 1 := by
    by_cases hline : p.first.line = p.last.line
    · rw [v.markCount_of_one_line hline]
      omega
    · rw [markCount, if_neg hline]
      omega
  have hcolumn : p.first.column ≤ s.length + 1 := by
    have hat : p.first.column = p.idx.toNat - s.lineStart p.idx.toNat + 1 := by
      rw [hfirst]
      rfl
    omega
  have hcolumn' : 0 ≤ p.first.column := by
    rw [v.first_column]
    omega
  rw [report?,
    Text.repetitions_of_fitsWord (Text.fitsWord_of_le hmarks.1 hmarks.2 h),
    Text.repetitions_of_fitsWord (Text.fitsWord_of_le hcolumn' hcolumn h)]
  rfl

end Layout

/-- The report of a span that a cursor comes to. Its lines are a header, which tells the last place
too when the span is longer than one character, a line with the marks, the lines of the source that
the span lies on, behind their numbers and in their order, and a closing line. Above the characters
of a span on one line stand as many marks as it is long; a longer span has one mark, above its
first character. -/
theorem report_points (s : Text) (p : Span) (h : p.Held s) :
    ∃ (width : Nat) (margin : Text) (count : Nat) (earlier shown later : List Text),
      (p.report s).lines =
        [p.first.label ++ if 1 < p.length then " to ".toList ++ p.last.label else [],
          margin ++ List.replicate count 'v' ++ " -- here".toList] ++
        shown.mapIdx (fun k line => quote width (p.first.line + k) line) ++
        [List.replicate width ' ' ++ " |".toList] ∧
      ((p.report s).lines.length : Int) = (p.last.line - p.first.line + 1) + 3 ∧
      s.lines = earlier ++ (shown ++ later) ∧
      p.first.line = earlier.length + 1 ∧ p.first.line ≤ p.last.line ∧
      p.last.line = earlier.length + shown.length ∧
      (∀ k < shown.length, (Text.ofInt (p.first.line + k)).length ≤ width) ∧
      'v' ∉ margin ∧
      (∀ quoted, (p.report s).lines[2]? = some quoted →
        (p.first.line = p.last.line → (count : Int) = p.length ∧
          (p.stop ≤ s.length → '\r' ∉ p.text s → '\n' ∉ p.text s →
            (quoted.drop margin.length).take count = p.text s)) ∧
        (p.first.line < p.last.line → count = 1 ∧
          ∀ c, s[p.idx.toNat]? = some c → c ≠ '\r' → c ≠ '\n' →
            (quoted.drop margin.length).take count = [c])) ∧
      (fitsWord (s.length + 1) = true → p.report? s = .ok (p.report s)) := by
  obtain ⟨v⟩ := h.layout
  obtain ⟨shown, later, hlines, hshown⟩ := v.exists_shown
  have hreport := v.lines_report hlines hshown
  have hnumbers := v.line_nonneg
  have hfirst := v.first_line
  have hlast := v.last_line
  refine ⟨p.gutterWidth, p.gutter ++ List.replicate p.first.column.toNat ' ', p.markCount.toNat,
    v.earlier, shown, later, ?_, ?_, hlines, by omega, hnumbers.2, by omega, ?_, ?_, ?_, ?_⟩
  · rw [hreport, v.header_eq]
    rfl
  · rw [hreport]
    simp only [List.length_append, List.length_cons, List.length_nil, List.length_mapIdx]
    omega
  · intro k hk
    exact v.length_number_le (by omega)
  · simp [gutter]
  · intro quoted hquoted
    refine ⟨fun hline => ⟨?_, v.marked_of_one_line hlines hshown hline hquoted⟩, fun hline => ⟨?_, ?_⟩⟩
    · have hcount := v.markCount_of_one_line hline
      have hlength := v.length_eq
      omega
    · rw [markCount, if_neg hline.ne]
      rfl
    · rw [markCount, if_neg hline.ne]
      exact fun c => v.marked_first hlines hshown hquoted
  · exact v.report?_eq h.located.1.first_eq

def openString : Span :=
  ⟨3, 5, ⟨2, 2⟩, ⟨3, 1⟩⟩

theorem report_points_openString :
    ((Cursor.ofText "p\n 'a\r\nb".toList).afterCalls 1).scan.1 =
      .error ⟨.malformedString, openString⟩ ∧
    ∃ margin count, (openString.report "p\n 'a\r\nb".toList).lines[1]? =
        some (margin ++ List.replicate count 'v' ++ " -- here".toList) ∧
      ("2 |  'a".toList.drop margin.length).take count = ['\''] := by
  have hfault : ((Cursor.ofText "p\n 'a\r\nb".toList).afterCalls 1).scan.1 =
      .error ⟨.malformedString, openString⟩ := by decide +kernel
  have hquoted : (openString.report "p\n 'a\r\nb".toList).lines[2]? = some "2 |  'a".toList := by
    decide +kernel
  obtain ⟨_, margin, count, _, _, _, hlines, -, -, -, -, -, -, -, hmarks, -⟩ :=
    report_points _ _ (.fault hfault)
  refine ⟨hfault, margin, count, by rw [hlines]; rfl, ?_⟩
  exact ((hmarks _ hquoted).2 (by decide)).2 '\'' rfl (by decide) (by decide)

end Span

end BraceMarkup
