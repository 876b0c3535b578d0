import BraceMarkup.Proofs.Text.Lines
import BraceMarkup.Text.Blank
import Mathlib.Data.List.DropRight

namespace BraceMarkup.Text

def solid (s : Text) : Text :=
  s.filter (!isBlank ·)

variable {s : Text} {c : Char}

@[simp] lemma solid_nil : solid [] = [] := rfl

@[simp] lemma solid_append (s t : Text) : solid (s ++ t) = solid s ++ solid t :=
  List.filter_append s t

lemma solid_cons_of_isBlank (h : isBlank c = true) (s : Text) : solid (c :: s) = solid s :=
  List.filter_cons_of_neg (by simp [h])

lemma solid_cons (c : Char) (s : Text) : solid (c :: s) = solid [c] ++ solid s :=
  solid_append [c] s

lemma solid_eq_nil_iff : solid s = [] ↔ s.isBlankText = true := by
  simp [solid, isBlankText]

lemma isBlank_of_isLineBreak (h : isLineBreak c = true) : isBlank c = true :=
  (List.all_eq_true (p := isBlank)).mp (by decide) c (of_decide_eq_true h)

lemma trimEnd_append (s : Text) : ∃ blanks, s = s.trimEnd ++ blanks ∧ blanks.isBlankText = true := by
  refine ⟨s.rtakeWhile isBlank, List.rdropWhile_append_rtakeWhile.symm, ?_⟩
  apply List.all_eq_true.mpr
  exact fun c hc => List.mem_rtakeWhile_imp hc

lemma dropWhile_isBlank_append (s : Text) :
    ∃ blanks, s = blanks ++ s.dropWhile isBlank ∧ blanks.isBlankText = true := by
  refine ⟨s.takeWhile isBlank, List.takeWhile_append_dropWhile.symm, ?_⟩
  apply List.all_eq_true.mpr
  exact fun c hc => List.mem_takeWhile_imp hc

@[simp] lemma solid_trimEnd (s : Text) : solid s.trimEnd = solid s := by
  obtain ⟨blanks, hs, hblanks⟩ := trimEnd_append s
  rw [← solid_eq_nil_iff] at hblanks
  nth_rw 2 [hs]
  rw [solid_append, hblanks, List.append_nil]

@[simp] lemma solid_trim (s : Text) : solid s.trim = solid s := by
  obtain ⟨blanks, hs, hblanks⟩ := dropWhile_isBlank_append s
  rw [← solid_eq_nil_iff] at hblanks
  nth_rw 2 [hs]
  rw [trim, solid_trimEnd, solid_append, hblanks, List.nil_append]

lemma isBlankText_congr {s t : Text} (h : solid s = solid t) : s.isBlankText = t.isBlankText := by
  rw [Bool.eq_iff_iff, ← solid_eq_nil_iff, ← solid_eq_nil_iff, h]

lemma getLast?_trimEnd (h : c ∈ s.trimEnd.getLast?) : isBlank c = false := by
  have hne : s.trimEnd ≠ [] := by
    intro hnil
    simp [hnil] at h
  rw [List.getLast?_eq_some_getLast hne, Option.mem_some_iff] at h
  have hlast := List.rdropWhile_last_not isBlank s hne
  rw [← h]
  exact Bool.eq_false_iff.mpr hlast

lemma trimEnd_append_of_not_blank (s : Text) {t : Text} (h : t.isBlankText = false) :
    (s ++ t).trimEnd = s ++ t.trimEnd := by
  have hne : t.trimEnd ≠ [] := by
    intro hnil
    have hsolid := solid_trimEnd t
    rw [hnil, solid_nil, eq_comm, solid_eq_nil_iff, h] at hsolid
    cases hsolid
  have hleft : (t.reverse.dropWhile isBlank).isEmpty = false := by
    rw [List.isEmpty_eq_false_iff]
    exact fun hnil => hne (List.reverse_eq_nil_iff.mpr hnil)
  rw [trimEnd, trimEnd, dropEnd, dropEnd, List.reverse_append, List.dropWhile_append, hleft,
    if_neg Bool.false_ne_true, List.reverse_append, List.reverse_reverse]

lemma solid_flatten_map {f : Text → Text} {ls : List Text} (h : ∀ l ∈ ls, solid (f l) = solid l) :
    solid (ls.map f).flatten = solid ls.flatten := by
  induction ls with
  | nil => rfl
  | cons l ls ih =>
    obtain ⟨hl, hls⟩ := List.forall_mem_cons.mp h
    rw [List.map_cons, List.flatten_cons, List.flatten_cons, solid_append, solid_append, hl, ih hls]

def nonblank (lines : List Text) : List Text :=
  lines.filter (!·.isBlankText)

@[simp] lemma nonblank_nil : nonblank [] = [] := rfl

lemma nonblank_append (ls ms : List Text) : nonblank (ls ++ ms) = nonblank ls ++ nonblank ms :=
  List.filter_append ls ms

lemma nonblank_cons (l : Text) (ls : List Text) : nonblank (l :: ls) = nonblank [l] ++ nonblank ls :=
  nonblank_append [l] ls

lemma nonblank_cons_of_blank {l : Text} (h : l.isBlankText = true) (ls : List Text) :
    nonblank (l :: ls) = nonblank ls :=
  List.filter_cons_of_neg (by simp [h])

lemma nonblank_cons_of_not_blank {l : Text} (h : l.isBlankText = false) (ls : List Text) :
    nonblank (l :: ls) = l :: nonblank ls :=
  List.filter_cons_of_pos (by simp [h])

lemma isBlankText_of_mem_nonblank {l : Text} {ls : List Text} (h : l ∈ nonblank ls) :
    l.isBlankText = false := by
  simpa using (List.mem_filter.mp h).2

lemma solid_flatten_nonblank (ls : List Text) :
    solid (nonblank ls).flatten = solid ls.flatten := by
  induction ls with
  | nil => rfl
  | cons l ls ih =>
    cases hl : l.isBlankText with
    | true =>
      rw [nonblank_cons_of_blank hl, ih, List.flatten_cons, solid_append, solid_eq_nil_iff.mpr hl,
        List.nil_append]
    | false =>
      rw [nonblank_cons_of_not_blank hl, List.flatten_cons, List.flatten_cons, solid_append,
        solid_append, ih]

lemma eq_nil_iff_solid_flatten {ls : List Text} (h : ∀ l ∈ ls, l.isBlankText = false) :
    ls = [] ↔ solid ls.flatten = [] := by
  constructor
  · rintro rfl
    rfl
  · intro hsolid
    apply List.eq_nil_iff_forall_not_mem.mpr
    intro l hl
    have hnil : solid l = [] := by
      rw [solid, List.filter_eq_nil_iff] at hsolid ⊢
      exact fun c hc => hsolid c (List.mem_flatten_of_mem hl hc)
    rw [solid_eq_nil_iff, h l hl] at hnil
    cases hnil

lemma solid_unlines (ls : List Text) : solid (unlines ls) = solid ls.flatten := by
  induction ls with
  | nil => rfl
  | cons l ls ih =>
    by_cases hls : ls = []
    · rw [hls, unlines_singleton, List.flatten_singleton]
    · rw [unlines_cons hls, solid_append, solid_cons_of_isBlank (by decide), ih, List.flatten_cons,
        solid_append]

lemma solid_flatten_breakLines (s : Text) : solid (breakLines s).flatten = solid s := by
  fun_induction breakLines s with
  | case1 => rfl
  | case2 cs ih =>
    rw [List.flatten_cons, List.nil_append, ih, solid_cons_of_isBlank (by decide),
      solid_cons_of_isBlank (by decide)]
  | case3 c cs _ hc ih =>
    rw [List.flatten_cons, List.nil_append, ih, solid_cons_of_isBlank (isBlank_of_isLineBreak hc)]
  | case4 c cs _ _ hcs ih =>
    rw [hcs] at ih
    rw [solid_cons c cs, ← ih, ← solid_append]
    rfl
  | case5 c cs _ _ l ls hcs ih =>
    rw [hcs] at ih
    rw [solid_cons c cs, ← ih, ← solid_append]
    rfl

end BraceMarkup.Text
