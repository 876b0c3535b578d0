import BraceMarkup.Proofs.Text.Margin

namespace BraceMarkup.Text

def parts (s : Text) : List Text :=
  nonblank (s.splitOnP isLineBreak)

def firstPart (s : Text) : Text :=
  s.takeWhile (!isLineBreak ·)

variable {m s w : Text} {c : Char}

lemma exists_splitOnP (s : Text) : ∃ later, s.splitOnP isLineBreak = firstPart s :: later ∧
    ∀ m : Text, (∀ c ∈ m, isLineBreak c = false) →
      (m ++ s).splitOnP isLineBreak = (m ++ firstPart s) :: later := by
  suffices ∃ later, ∀ m : Text, (∀ c ∈ m, isLineBreak c = false) →
      (m ++ s).splitOnP isLineBreak = (m ++ firstPart s) :: later by
    obtain ⟨later, h⟩ := this
    exact ⟨later, h [] (by simp), h⟩
  have hfirst : ∀ c ∈ firstPart s, isLineBreak c = false := by
    intro c hc
    simpa using List.mem_takeWhile_imp hc
  have hs := List.takeWhile_append_dropWhile (p := (!isLineBreak ·)) (l := s)
  cases hrest : s.dropWhile (!isLineBreak ·) with
  | nil =>
    rw [hrest, List.append_nil] at hs
    refine ⟨[], fun m hm => ?_⟩
    rw [List.splitOnP_eq_singleton, firstPart, hs]
    intro c hc
    rcases List.mem_append.mp hc with hc | hc
    · exact hm c hc
    · rw [← hs] at hc
      exact hfirst c hc
  | cons c rest =>
    have hc : isLineBreak c = true := by
      have hhead := List.head?_dropWhile_not (!isLineBreak ·) s
      simpa [hrest] using hhead
    rw [hrest] at hs
    refine ⟨rest.splitOnP isLineBreak, fun m hm => ?_⟩
    have hmine : ∀ d ∈ m ++ firstPart s, isLineBreak d = false := by
      intro d hd
      rcases List.mem_append.mp hd with hd | hd
      · exact hm d hd
      · exact hfirst d hd
    nth_rw 1 [← hs]
    rw [← List.append_assoc]
    exact List.splitOnP_append_cons_of_forall_mem hmine c hc rest

lemma infix_of_mem_splitOnP (h : w ∈ s.splitOnP isLineBreak) : w <:+: s := by
  induction s generalizing w with
  | nil =>
    obtain rfl : w = [] := by simpa using h
    exact List.nil_infix
  | cons c s ih =>
    cases hc : isLineBreak c with
    | true =>
      have hsplit : (c :: s).splitOnP isLineBreak = [] :: s.splitOnP isLineBreak := by
        rw [List.splitOnP_cons_eq_if_modifyHead, hc, if_pos rfl]
      rw [hsplit] at h
      rcases List.mem_cons.mp h with rfl | h
      · exact List.nil_infix
      · exact (ih h).trans (List.suffix_cons c s).isInfix
    | false =>
      obtain ⟨later, htail, hsplit⟩ := exists_splitOnP s
      have hcons := hsplit [c] (by simpa using hc)
      rw [List.singleton_append, List.singleton_append] at hcons
      rw [hcons] at h
      rcases List.mem_cons.mp h with rfl | h
      · exact ((List.prefix_cons_inj c).mpr (List.takeWhile_prefix _)).isInfix
      · have hlater : w ∈ s.splitOnP isLineBreak := by
          rw [htail]
          exact List.mem_cons_of_mem _ h
        exact (ih hlater).trans (List.suffix_cons c s).isInfix

lemma infix_of_mem_parts (h : w ∈ parts s) : w <:+: s :=
  infix_of_mem_splitOnP (List.mem_filter.mp h).1

lemma parts_append_cons (hc : isLineBreak c = true) (s t : Text) :
    parts (s ++ c :: t) = parts s ++ parts t := by
  rw [parts, List.splitOnP_append_cons s t hc, nonblank_append]
  rfl

lemma parts_unlines (ls : List Text) : parts (unlines ls) = ls.flatMap parts := by
  induction ls with
  | nil => rfl
  | cons l ls ih =>
    by_cases hls : ls = []
    · rw [hls, unlines_singleton, List.flatMap_singleton]
    · rw [unlines_cons hls, parts_append_cons (by decide), ih, List.flatMap_cons]

lemma exists_breakLines (hs : s ≠ []) : ∃ later, breakLines s = firstPart s :: later := by
  fun_induction breakLines s with
  | case1 => exact absurd rfl hs
  | case2 cs ih => exact ⟨_, rfl⟩
  | case3 c cs _ hc ih =>
    refine ⟨breakLines cs, ?_⟩
    rw [firstPart, List.takeWhile_cons_of_neg (by simp [hc])]
  | case4 c cs _ hc hcs ih =>
    have hnil : cs = [] := by
      by_contra hne
      obtain ⟨later, hlater⟩ := ih hne
      rw [hcs] at hlater
      cases hlater
    refine ⟨[], ?_⟩
    rw [hnil, firstPart, List.takeWhile_cons_of_pos (by simp [hc])]
    rfl
  | case5 c cs _ hc l ls hcs ih =>
    have hne : cs ≠ [] := by
      rintro rfl
      cases hcs
    obtain ⟨later, hlater⟩ := ih hne
    obtain ⟨hl, -⟩ := List.cons.inj (hcs.symm.trans hlater)
    refine ⟨ls, ?_⟩
    rw [hl, firstPart, firstPart, List.takeWhile_cons_of_pos (by simp [hc])]

lemma nonblank_breakLines (s : Text) : nonblank (breakLines s) = parts s := by
  fun_induction breakLines s with
  | case1 => rfl
  | case2 cs ih =>
    rw [nonblank_cons_of_blank rfl, ih]
    exact (parts_append_cons (by decide) ['\r'] cs).symm
  | case3 c cs _ hc ih =>
    rw [nonblank_cons_of_blank rfl, ih]
    exact (parts_append_cons hc [] cs).symm
  | case4 c cs _ hc hcs ih =>
    have hnil : cs = [] := by
      by_contra hne
      obtain ⟨later, hlater⟩ := exists_breakLines hne
      rw [hcs] at hlater
      cases hlater
    rw [hnil, parts, List.splitOnP_eq_singleton (by simpa using hc)]
  | case5 c cs _ hc l ls hcs ih =>
    have hne : cs ≠ [] := by
      rintro rfl
      cases hcs
    obtain ⟨later, hlater⟩ := exists_breakLines hne
    obtain ⟨rfl, rfl⟩ := List.cons.inj (hcs.symm.trans hlater)
    obtain ⟨rest, htail, hsplit⟩ := exists_splitOnP cs
    have hcons := hsplit [c] (by simpa using hc)
    rw [List.singleton_append, List.singleton_append] at hcons
    rw [hcs, parts, htail, nonblank_cons, nonblank_cons _ rest] at ih
    rw [parts, hcons, nonblank_cons, nonblank_cons _ rest, List.append_cancel_left ih]

lemma solid_flatten_parts (s : Text) : solid (parts s).flatten = solid s := by
  rw [← nonblank_breakLines, solid_flatten_nonblank, solid_flatten_breakLines]

lemma parts_eq_nil_iff : parts s = [] ↔ s.isBlankText = true := by
  rw [← solid_eq_nil_iff, ← solid_flatten_parts]
  exact eq_nil_iff_solid_flatten fun l => isBlankText_of_mem_nonblank

lemma isLineBreak_of_isIndent (h : isIndent c = true) : isLineBreak c = false := by
  rcases (Bool.or_eq_true _ _).mp h with hc | hc
  · rw [of_decide_eq_true hc]
    decide
  · rw [of_decide_eq_true hc]
    decide

lemma solid_indent_append (hm : m.all isIndent = true) (s : Text) : solid (m ++ s) = solid s := by
  rw [solid_append, solid_eq_nil_iff.mpr (isBlankText_of_all_isIndent hm), List.nil_append]

lemma parts_append_cases (hm : m.all isIndent = true) (s : Text) :
    (firstPart s).isBlankText = true ∧ parts (m ++ s) = parts s ∨
    (firstPart s).isBlankText = false ∧ ∃ later, parts s = firstPart s :: later ∧
      parts (m ++ s) = (m ++ firstPart s) :: later := by
  obtain ⟨later, hs, hsplit⟩ := exists_splitOnP s
  have hbreaks : ∀ c ∈ m, isLineBreak c = false := fun c hc =>
    isLineBreak_of_isIndent (List.all_eq_true.mp hm c hc)
  have hblank := isBlankText_congr (solid_indent_append hm (firstPart s))
  rw [parts, parts, hs, hsplit m hbreaks]
  cases hfirst : (firstPart s).isBlankText with
  | true =>
    rw [nonblank_cons_of_blank (hblank.trans hfirst), nonblank_cons_of_blank hfirst]
    exact .inl ⟨rfl, rfl⟩
  | false =>
    rw [nonblank_cons_of_not_blank (hblank.trans hfirst), nonblank_cons_of_not_blank hfirst]
    exact .inr ⟨rfl, nonblank later, rfl, rfl⟩

lemma length_parts_append (hm : m.all isIndent = true) (s : Text) :
    (parts (m ++ s)).length = (parts s).length := by
  obtain ⟨-, hsame⟩ | ⟨-, later, hs, hmore⟩ := parts_append_cases hm s
  · rw [hsame]
  · rw [hs, hmore, List.length_cons, List.length_cons]

lemma firstPart_append (hm : m.all isIndent = true) (s : Text) :
    firstPart (m ++ s) = m ++ firstPart s := by
  apply List.takeWhile_append_of_pos
  intro c hc
  rw [isLineBreak_of_isIndent (List.all_eq_true.mp hm c hc)]
  rfl

lemma isBlankText_firstPart_append (hm : m.all isIndent = true) (s : Text) :
    (firstPart (m ++ s)).isBlankText = (firstPart s).isBlankText := by
  rw [firstPart_append hm]
  exact isBlankText_congr (solid_indent_append hm _)

lemma isBlankText_firstPart (hm : m.all isIndent = true) : (firstPart m).isBlankText = true := by
  have hblank := isBlankText_firstPart_append hm []
  rw [List.append_nil] at hblank
  exact hblank

lemma map_trimEnd_parts_append_iff (hm : m.all isIndent = true) (hne : m ≠ []) (s : Text) :
    (parts (m ++ s)).map trimEnd = (parts s).map trimEnd ↔ (firstPart s).isBlankText = true := by
  obtain ⟨hblank, hsame⟩ | ⟨hblank, later, hs, hmore⟩ := parts_append_cases hm s
  · rw [hsame]
    exact iff_of_true rfl hblank
  · rw [hs, hmore, List.map_cons, List.map_cons, trimEnd_append_of_not_blank m hblank, hblank]
    simp [hne]

lemma length_parts_dropMargin {line : Text} (h : IsMargin m line) :
    (parts (dropMargin m line)).length = (parts line).length := by
  cases hall : line.all isIndent with
  | true =>
    rw [dropMargin_of_all hall, parts_eq_nil_iff.mpr (isBlankText_of_all_isIndent hall)]
    rfl
  | false =>
    nth_rw 2 [← append_dropMargin (h.start hall) hall]
    rw [length_parts_append h.all_isIndent]

end BraceMarkup.Text
