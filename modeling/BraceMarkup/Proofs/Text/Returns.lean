import BraceMarkup.Proofs.Text.Parts

/-! Newlines written as a carriage return and a newline. Each line but the last then ends in a
carriage return. That takes no part in an indent, so a line that was all indent counts for the
margin. -/

namespace BraceMarkup.Text

def crlf (s : Text) : Text :=
  s.flatMap fun c => if c = '\n' then ['\r', '\n'] else [c]

def returned : List Text → List Text
  | [] => []
  | [l] => [l]
  | l :: l' :: ls => (l ++ ['\r']) :: returned (l' :: ls)

variable {l m p s : Text} {ls : List Text} {c : Char}

@[simp] lemma crlf_append (s t : Text) : crlf (s ++ t) = crlf s ++ crlf t :=
  List.flatMap_append

lemma crlf_newline_cons (s : Text) : crlf ('\n' :: s) = '\r' :: '\n' :: crlf s := rfl

lemma crlf_cons_of_ne (hc : c ≠ '\n') (s : Text) : crlf (c :: s) = c :: crlf s := by
  rw [crlf, List.flatMap_cons, if_neg hc]
  rfl

lemma returned_cons (h : ls ≠ []) (l : Text) : returned (l :: ls) = (l ++ ['\r']) :: returned ls := by
  obtain ⟨l', ls, rfl⟩ := List.exists_cons_of_ne_nil h
  rfl

lemma returned_modifyHead_cons (c : Char) (ls : List Text) :
    returned (ls.modifyHead (c :: ·)) = (returned ls).modifyHead (c :: ·) := by
  fun_cases returned ls with
  | case1 | case2 | case3 => rfl

lemma lines_crlf (s : Text) : (crlf s).lines = returned s.lines := by
  induction s with
  | nil => rfl
  | cons c s ih =>
    by_cases hc : c = '\n'
    · subst hc
      rw [crlf_newline_cons, lines_newline_cons, returned_cons (lines_ne_nil s),
        lines_cons_of_ne (by decide), lines_newline_cons, ih]
      rfl
    · rw [crlf_cons_of_ne hc, lines_cons_of_ne hc, lines_cons_of_ne hc, returned_modifyHead_cons, ih]

lemma flatMap_returned {f : Text → List Text} (h : ∀ l ∈ ls, f (l ++ ['\r']) = f l) :
    (returned ls).flatMap f = ls.flatMap f := by
  fun_induction returned ls with
  | case1 | case2 => rfl
  | case3 l l' ls ih =>
    obtain ⟨hl, hls⟩ := List.forall_mem_cons.mp h
    rw [List.flatMap_cons, List.flatMap_cons, hl, ih hls]

lemma trimEnd_return (s : Text) : trimEnd (s ++ ['\r']) = trimEnd s :=
  List.rdropWhile_concat_pos isBlank s '\r' (by decide)

lemma trim_return (s : Text) : trim (s ++ ['\r']) = trim s := by
  rw [trim, trim, List.dropWhile_append]
  split
  · next hnil =>
    rw [List.isEmpty_iff.mp hnil]
    decide
  · exact trimEnd_return _

lemma parts_return (s : Text) : parts (s ++ ['\r']) = parts s := by
  rw [parts_append_cons (by decide)]
  exact List.append_nil _

lemma all_isIndent_return (l : Text) : (l ++ ['\r']).all isIndent = false := by
  have hreturn : isIndent '\r' = false := by decide
  simp [hreturn]

lemma takeWhile_isIndent_return (l : Text) :
    (l ++ ['\r']).takeWhile isIndent = l.takeWhile isIndent := by
  rw [List.takeWhile_append]
  split
  · next hl =>
    have hreturn : ['\r'].takeWhile isIndent = [] := by decide
    rw [hreturn, List.append_nil]
    exact ((List.takeWhile_prefix isIndent).eq_of_length hl).symm
  · rfl

lemma forall_returned_iff : (∀ l ∈ returned ls, l.all isIndent = false → p <+: l.takeWhile isIndent) ↔
    (∀ l ∈ ls, l.all isIndent = false → p <+: l.takeWhile isIndent) ∧
      ∀ l ∈ ls.dropLast, l.all isIndent = true → p <+: l := by
  fun_induction returned ls with
  | case1 => simp
  | case2 l => simp
  | case3 l l' ls ih =>
    -- The carriage return makes the line count, whether or not it is all indent.
    have hhead : p <+: l.takeWhile isIndent ↔
        (l.all isIndent = false → p <+: l.takeWhile isIndent) ∧ (l.all isIndent = true → p <+: l) := by
      cases hl : l.all isIndent with
      | true =>
        rw [List.takeWhile_eq_self_iff.mpr (List.all_eq_true.mp hl)]
        simp
      | false => simp
    rw [List.forall_mem_cons, ih, all_isIndent_return, takeWhile_isIndent_return,
      forall_prop_of_true rfl, hhead, and_and_and_comm, List.dropLast_cons_cons,
      List.forall_mem_cons (a := l) (l := l' :: ls), List.forall_mem_cons (a := l)]

lemma exists_mem_returned (h : ∃ l ∈ ls, l.all isIndent = false) :
    ∃ l ∈ returned ls, l.all isIndent = false := by
  fun_cases returned ls with
  | case1 | case2 => exact h
  | case3 l l' ls => exact ⟨l ++ ['\r'], List.mem_cons_self, all_isIndent_return l⟩

lemma prefix_margin_returned_iff (h : ∃ l ∈ ls, l.all isIndent = false) :
    p <+: margin (returned ls) ↔
      p <+: margin ls ∧ ∀ l ∈ ls.dropLast, l.all isIndent = true → p <+: l := by
  rw [prefix_margin_iff h, prefix_margin_iff (exists_mem_returned h), forall_returned_iff]

lemma margin_returned_le (h : ∃ l ∈ ls, l.all isIndent = false) :
    margin (returned ls) <+: margin ls :=
  ((prefix_margin_returned_iff h).mp (List.prefix_refl _)).1

lemma margin_returned_eq_iff (h : ∃ l ∈ ls, l.all isIndent = false) :
    margin (returned ls) = margin ls ↔
      ∀ l ∈ ls.dropLast, l.all isIndent = true → margin ls <+: l := by
  have hiff := prefix_margin_returned_iff (p := margin ls) h
  constructor
  · intro heq
    exact (hiff.mp (heq ▸ List.prefix_refl _)).2
  · intro hblank
    have hback := hiff.mpr ⟨List.prefix_refl _, hblank⟩
    exact (margin_returned_le h).eq_of_length_le hback.length_le

lemma isMargin_margin_returned (hl : l ∈ ls) : IsMargin (margin (returned ls)) l where
  all_isIndent := all_isIndent_margin (returned ls)
  start hnot :=
    (margin_returned_le ⟨l, hl, hnot⟩).trans ((isMargin_margin hl).start hnot)

end BraceMarkup.Text
