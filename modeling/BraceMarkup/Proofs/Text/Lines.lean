import BraceMarkup.Text.Lines
import Mathlib.Tactic

namespace BraceMarkup.Text

variable {l s x : Text} {ls : List Text} {c : Char}

lemma lines_ne_nil (s : Text) : s.lines ≠ [] :=
  List.splitOn_ne_nil '\n' s

lemma unlines_lines (s : Text) : unlines s.lines = s :=
  List.intercalate_splitOn '\n'

lemma lines_unlines (hne : ls ≠ []) (h : ∀ l ∈ ls, '\n' ∉ l) : (unlines ls).lines = ls :=
  List.splitOn_intercalate '\n' h hne

lemma lines_of_not_mem (hx : '\n' ∉ x) : x.lines = [x] :=
  List.splitOn_eq_singleton hx

lemma lines_append_newline (hx : '\n' ∉ x) (s : Text) : (x ++ '\n' :: s).lines = x :: s.lines :=
  List.splitOn_append_cons_self_of_not_mem hx s

lemma lines_newline_cons (s : Text) : Text.lines ('\n' :: s) = [] :: s.lines :=
  lines_append_newline List.not_mem_nil s

lemma lines_cons_of_ne (hc : c ≠ '\n') (s : Text) :
    Text.lines (c :: s) = s.lines.modifyHead (c :: ·) := by
  rw [lines, lines, List.splitOn, List.splitOnP_cons_eq_if_modifyHead, if_neg (by simpa using hc)]
  rfl

lemma not_mem_of_mem_lines (h : l ∈ s.lines) : '\n' ∉ l := by
  induction s generalizing l with
  | nil =>
    obtain rfl : l = [] := List.mem_singleton.mp h
    exact List.not_mem_nil
  | cons c s ih =>
    by_cases hc : c = '\n'
    · rw [hc, lines_newline_cons] at h
      rcases List.mem_cons.mp h with rfl | h
      · exact List.not_mem_nil
      · exact ih h
    · obtain ⟨first, others, hlines⟩ := List.exists_cons_of_ne_nil (lines_ne_nil s)
      rw [hlines] at ih
      rw [lines_cons_of_ne hc, hlines, List.modifyHead_cons] at h
      rcases List.mem_cons.mp h with rfl | h
      · rw [List.mem_cons, not_or]
        exact ⟨Ne.symm hc, ih List.mem_cons_self⟩
      · exact ih (List.mem_cons_of_mem first h)

lemma unlines_singleton (l : Text) : unlines [l] = l :=
  List.intercalate_singleton

lemma unlines_cons (hne : ls ≠ []) (l : Text) : unlines (l :: ls) = l ++ '\n' :: unlines ls := by
  obtain ⟨k, ls, rfl⟩ := List.exists_cons_of_ne_nil hne
  rw [unlines, List.intercalate_cons_cons, List.append_assoc]
  rfl

lemma infix_unlines (h : l ∈ ls) : l <:+: unlines ls := by
  induction ls with
  | nil => cases h
  | cons k ls ih =>
    by_cases hls : ls = []
    · obtain rfl : l = k := by simpa [hls] using h
      rw [hls, unlines_singleton]
    · rw [unlines_cons hls]
      rcases List.mem_cons.mp h with rfl | h
      · exact (List.prefix_append l _).isInfix
      · have hrest : unlines ls <:+ k ++ '\n' :: unlines ls := ⟨k ++ ['\n'], by simp⟩
        exact (ih h).trans hrest.isInfix

lemma infix_of_mem_lines (h : l ∈ s.lines) : l <:+: s := by
  have hin := infix_unlines h
  rwa [unlines_lines] at hin

end BraceMarkup.Text
