import BraceMarkup.Proofs.Text.Blank
import BraceMarkup.Text.Margin

namespace BraceMarkup.Text

variable {m p line : Text} {lines : List Text}

lemma isBlank_of_isIndent {c : Char} (h : isIndent c = true) : isBlank c = true := by
  rcases (Bool.or_eq_true _ _).mp h with hc | hc
  · rw [of_decide_eq_true hc]
    decide
  · rw [of_decide_eq_true hc]
    decide

lemma isBlankText_of_all_isIndent (h : line.all isIndent = true) : line.isBlankText = true :=
  List.all_eq_true.mpr fun c hc => isBlank_of_isIndent (List.all_eq_true.mp h c hc)

lemma prefix_commonStart_iff {a b : Text} : p <+: commonStart a b ↔ p <+: a ∧ p <+: b := by
  fun_induction commonStart a b generalizing p with
  | case1 as b bs ih =>
    rw [List.prefix_cons_iff, List.prefix_cons_iff, List.prefix_cons_iff]
    constructor
    · rintro (rfl | ⟨t, rfl, ht⟩)
      · exact ⟨.inl rfl, .inl rfl⟩
      · obtain ⟨ha, hb⟩ := ih.mp ht
        exact ⟨.inr ⟨t, rfl, ha⟩, .inr ⟨t, rfl, hb⟩⟩
    · rintro ⟨rfl | ⟨t, rfl, ha⟩, hb⟩
      · exact .inl rfl
      · obtain hnil | ⟨u, hu, hb⟩ := hb
        · cases hnil
        · obtain rfl := (List.cons.inj hu).2
          exact .inr ⟨t, rfl, ih.mpr ⟨ha, hb⟩⟩
  | case2 a as b bs hne =>
    rw [List.prefix_nil, List.prefix_cons_iff, List.prefix_cons_iff]
    constructor
    · rintro rfl
      exact ⟨.inl rfl, .inl rfl⟩
    · rintro ⟨rfl | ⟨t, rfl, -⟩, hb⟩
      · rfl
      · obtain hnil | ⟨u, hu, -⟩ := hb
        · cases hnil
        · exact absurd (List.cons.inj hu).1 hne
  | case3 a b hcons =>
    rw [List.prefix_nil]
    constructor
    · rintro rfl
      exact ⟨List.nil_prefix, List.nil_prefix⟩
    · rintro ⟨ha, hb⟩
      cases a with
      | nil => exact List.prefix_nil.mp ha
      | cons c a =>
        cases b with
        | nil => exact List.prefix_nil.mp hb
        | cons d b => exact (hcons c a d b rfl rfl).elim

lemma margin?_eq_none_iff : margin? lines = none ↔ ∀ line ∈ lines, line.all isIndent = true := by
  induction lines with
  | nil => simp [margin?]
  | cons line lines ih =>
    rw [margin?, List.forall_mem_cons, ← ih]
    cases hline : line.all isIndent with
    | true => simp
    | false => cases margin? lines <;> simp

lemma prefix_margin?_iff (h : margin? lines = some m) : p <+: m ↔
    ∀ line ∈ lines, line.all isIndent = false → p <+: line.takeWhile isIndent := by
  induction lines generalizing m with
  | nil => cases h
  | cons line lines ih =>
    rw [margin?] at h
    rw [List.forall_mem_cons]
    cases hline : line.all isIndent with
    | true =>
      rw [hline, if_pos rfl] at h
      simpa using ih h
    | false =>
      rw [hline, if_neg Bool.false_ne_true] at h
      cases hm : margin? lines with
      | none =>
        rw [hm] at h
        obtain rfl := Option.some.inj h
        have hall := margin?_eq_none_iff.mp hm
        constructor
        · intro hp
          refine ⟨fun _ => hp, fun l hl hnot => ?_⟩
          rw [hall l hl] at hnot
          cases hnot
        · exact fun hp => hp.1 rfl
      | some n =>
        rw [hm] at h
        obtain rfl := Option.some.inj h
        rw [prefix_commonStart_iff, ih hm]
        simp

def margin (lines : List Text) : Text :=
  (margin? lines).getD []

lemma dropMargins_eq (lines : List Text) :
    dropMargins lines = lines.map (dropMargin (margin lines)) := rfl

lemma prefix_margin_iff (h : ∃ line ∈ lines, line.all isIndent = false) : p <+: margin lines ↔
    ∀ line ∈ lines, line.all isIndent = false → p <+: line.takeWhile isIndent := by
  cases hm : margin? lines with
  | none =>
    obtain ⟨line, hline, hnot⟩ := h
    rw [margin?_eq_none_iff.mp hm line hline] at hnot
    cases hnot
  | some m =>
    rw [margin, hm]
    exact prefix_margin?_iff hm

lemma margin_prefix_takeWhile (hline : line ∈ lines) (hnot : line.all isIndent = false) :
    margin lines <+: line.takeWhile isIndent :=
  (prefix_margin_iff ⟨line, hline, hnot⟩).mp (List.prefix_refl _) line hline hnot

lemma all_isIndent_margin (lines : List Text) : (margin lines).all isIndent = true := by
  cases hm : margin? lines with
  | none =>
    rw [margin, hm]
    rfl
  | some m =>
    have hsome : ¬ ∀ line ∈ lines, line.all isIndent = true := by
      rw [← margin?_eq_none_iff, hm]
      simp
    push Not at hsome
    obtain ⟨line, hline, hnot⟩ := hsome
    have hstart := margin_prefix_takeWhile hline (Bool.eq_false_iff.mpr hnot)
    exact List.all_eq_true.mpr fun c hc => List.mem_takeWhile_imp (hstart.subset hc)

structure IsMargin (m line : Text) : Prop where
  all_isIndent : m.all isIndent = true
  start : line.all isIndent = false → m <+: line

lemma isMargin_margin (hline : line ∈ lines) : IsMargin (margin lines) line where
  all_isIndent := all_isIndent_margin lines
  start hnot := (margin_prefix_takeWhile hline hnot).trans (List.takeWhile_prefix isIndent)

lemma dropMargin_of_all (h : line.all isIndent = true) : dropMargin m line = [] := by
  rw [dropMargin, if_pos h]

lemma append_dropMargin (h : m <+: line) (hnot : line.all isIndent = false) :
    m ++ dropMargin m line = line := by
  rw [dropMargin, if_neg (by simp [hnot]), if_pos (List.isPrefixOf_iff_prefix.mpr h)]
  exact List.prefix_iff_eq_append.mp h

lemma dropMargin_eq (h : m ++ p = line) (hall : line.all isIndent = false) : dropMargin m line = p := by
  have hdrop := append_dropMargin ⟨p, h⟩ hall
  exact List.append_cancel_left (hdrop.trans h.symm)

lemma dropMargin_suffix (m line : Text) : dropMargin m line <:+ line := by
  rw [dropMargin]
  split
  · exact List.nil_suffix
  · split
    · exact List.drop_suffix _ _
    · exact List.suffix_refl _

lemma solid_dropMargin (hm : m.all isIndent = true) (line : Text) :
    solid (dropMargin m line) = solid line := by
  cases hline : line.all isIndent with
  | true =>
    rw [dropMargin_of_all hline, solid_eq_nil_iff.mpr (isBlankText_of_all_isIndent hline)]
    rfl
  | false =>
    by_cases hstart : m <+: line
    · have hblank := solid_eq_nil_iff.mpr (isBlankText_of_all_isIndent hm)
      nth_rw 2 [← append_dropMargin hstart hline]
      rw [solid_append, hblank, List.nil_append]
    · rw [dropMargin, if_neg (by simp [hline]), if_neg (by rwa [List.isPrefixOf_iff_prefix])]

lemma solid_flatten_dropMargins (lines : List Text) :
    solid (dropMargins lines).flatten = solid lines.flatten :=
  solid_flatten_map fun line _ => solid_dropMargin (all_isIndent_margin lines) line

end BraceMarkup.Text
