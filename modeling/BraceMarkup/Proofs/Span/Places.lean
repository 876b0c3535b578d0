import BraceMarkup.Proofs.Text.Lines
import BraceMarkup.Proofs.Token.Position

/-! Places against lines. A cursor counts its places forward, one character at a time. They name the
lines and the columns at which the source has these characters when it is cut at its newlines. -/

namespace BraceMarkup

namespace Text

lemma lines_injective {s t : Text} (h : s.lines = t.lines) : s = t := by
  rw [← unlines_lines s, h, unlines_lines]

lemma exists_lines_afterText (n : Int) {start : Text} (hstart : '\n' ∉ start) (x : Text) :
    ∃ full last, '\n' ∉ last ∧
      (∀ rest, (start ++ (x ++ rest)).lines = full ++ (last ++ rest).lines) ∧
      (⟨n, start.length + 1⟩ : Place).afterText x = ⟨n + full.length, last.length + 1⟩ := by
  induction x generalizing n start with
  | nil => exact ⟨[], start, hstart, fun _ => rfl, by simp [Place.afterText]⟩
  | cons c x ih =>
    by_cases hc : c = '\n'
    · subst hc
      obtain ⟨full, last, hlast, hlines, hplace⟩ := ih (n + 1) List.not_mem_nil
      refine ⟨start :: full, last, hlast, fun rest => ?_, ?_⟩
      · rw [List.cons_append, lines_append_newline hstart, ← List.nil_append (x ++ rest), hlines,
          List.cons_append]
      · have hfull : n + 1 + (full.length : Int) = n + (start :: full).length := by
          rw [List.length_cons]
          omega
        rw [← hfull, ← hplace]
        rfl
    · have hstart' : '\n' ∉ start ++ [c] :=
        List.not_mem_append hstart (mt List.mem_singleton.mp (Ne.symm hc))
      obtain ⟨full, last, hlast, hlines, hplace⟩ := ih n hstart'
      refine ⟨full, last, hlast, fun rest => ?_, ?_⟩
      · rw [← hlines, List.append_assoc]
        rfl
      · have hafter : (⟨n, start.length + 1⟩ : Place).after c = ⟨n, (start ++ [c]).length + 1⟩ := by
          simp [Place.after, hc]
        rw [← hplace, ← hafter]
        rfl

lemma exists_first_line {x : Text} (hx : '\n' ∉ x) (rest : Text) :
    ∃ y later, (x ++ rest).lines = (x ++ y) :: later := by
  induction rest generalizing x with
  | nil => exact ⟨[], [], by rw [List.append_nil, lines_of_not_mem hx]⟩
  | cons c rest ih =>
    by_cases hc : c = '\n'
    · exact ⟨[], lines rest, by rw [hc, lines_append_newline hx, List.append_nil]⟩
    · have hx' : '\n' ∉ x ++ [c] :=
        List.not_mem_append hx (mt List.mem_singleton.mp (Ne.symm hc))
      obtain ⟨y, later, hlines⟩ := ih hx'
      refine ⟨c :: y, later, ?_⟩
      rw [List.append_assoc, List.append_assoc] at hlines
      exact hlines

lemma placeAt_length_append (before rest : Text) :
    (before ++ rest).placeAt before.length = ({} : Place).afterText before := by
  have hcount := afterText_placeAt [] before rest
  rw [List.nil_append, List.length_nil, Nat.zero_add, placeAt_zero] at hcount
  exact hcount.symm

lemma getElem?_of_charAt {s : Text} {i : Int} {c : Char} (hi : 0 ≤ i) (h : s.charAt i = .ok c) :
    s[i.toNat]? = some c := by
  have hindex : s.index i = i := if_neg (by omega)
  simp only [charAt, hindex, not_lt.mpr hi, if_false] at h
  split at h
  · cases h
  · cases hget : s[i.toNat]? with
    | none =>
      rw [hget] at h
      cases h
    | some d =>
      rw [hget] at h
      exact congrArg some (Except.ok.inj h)

end Text

namespace Span

variable {s : Text} {p q : Span}

/-- The spans that a cursor over `s` comes to: those that it stands on and that it gives, whatever
it has answered before, and the ones between them, a character at a time. -/
inductive Held (s : Text) : Span → Prop
  | cursor (n : Nat) : Held s ((Cursor.ofText s).afterCalls n).span
  | token {n : Nat} {t : Token} :
      ((Cursor.ofText s).afterCalls n).scan.1 = .ok (some t) → Held s t.span
  | fault {n : Nat} {f : Fault} :
      ((Cursor.ofText s).afterCalls n).scan.1 = .error f → Held s f.span
  | extend {p q : Span} : Held s p → p.stop ≤ s.length → p.extend s = .ok q → Held s q
  | advance {p q : Span} : Held s p → p.stop ≤ s.length → p.advance s = .ok q → Held s q

lemma Located.next {place : Place} (h : p.Located s) (hstop : p.stop ≤ s.length)
    (hnext : p.next s = .ok place) : place = s.placeAt p.stop.toNat := by
  have hidx := h.idx_nonneg
  have hlength := h.length_pos
  have hlast : 0 ≤ p.stop - 1 := by
    rw [stop]
    omega
  have hsucc : p.stop.toNat = (p.stop - 1).toNat + 1 := by omega
  rw [Span.next, if_pos (by omega)] at hnext
  cases hchar : s.charAt (p.stop - 1) with
  | error e =>
    rw [hchar] at hnext
    cases hnext
  | ok c =>
    rw [hchar] at hnext
    rw [hsucc, Text.placeAt_succ (Text.getElem?_of_charAt hlast hchar), ← h.last_eq]
    exact (Except.ok.inj hnext).symm

lemma Located.extend (h : p.Located s) (hstop : p.stop ≤ s.length) (hq : p.extend s = .ok q) :
    q.Located s ∧ q.stop - 1 = p.stop := by
  rw [Span.extend] at hq
  cases hnext : p.next s with
  | error e =>
    rw [hnext] at hq
    cases hq
  | ok place =>
    rw [hnext] at hq
    obtain rfl := Except.ok.inj hq
    have hlength := h.length_pos
    have hend : p.idx + (p.length + 1) - 1 = p.stop := by
      rw [stop]
      omega
    refine ⟨⟨h.idx_nonneg, ?_, h.first_eq, ?_⟩, hend⟩
    · show 1 ≤ p.length + 1
      omega
    · show place = s.placeAt (p.idx + (p.length + 1) - 1).toNat
      rw [hend]
      exact h.next hstop hnext

lemma Located.advance (h : p.Located s) (hstop : p.stop ≤ s.length) (hq : p.advance s = .ok q) :
    q.Located s ∧ q.stop - 1 = p.stop := by
  rw [Span.advance] at hq
  cases hnext : p.next s with
  | error e =>
    rw [hnext] at hq
    cases hq
  | ok place =>
    rw [hnext] at hq
    obtain rfl := Except.ok.inj hq
    have hidx := h.idx_nonneg
    have hlength := h.length_pos
    have hplace := h.next hstop hnext
    have hend : p.stop + 1 - 1 = p.stop := by omega
    refine ⟨⟨?_, le_rfl, hplace, ?_⟩, hend⟩
    · show 0 ≤ p.idx + p.length
      omega
    · show place = s.placeAt (p.stop + 1 - 1).toNat
      rw [hend, hplace]

lemma Held.located (h : p.Held s) : p.Located s ∧ p.stop - 1 ≤ s.length := by
  induction h with
  | cursor n =>
    obtain ⟨before, hstands⟩ := Cursor.exists_standsIn_afterCalls s n
    obtain ⟨hloc, hinside, hend⟩ := hstands.located_span
    refine ⟨hloc, ?_⟩
    by_cases hr : ((Cursor.ofText s).afterCalls n).rest = []
    · obtain ⟨hidx, hlength⟩ := hend hr
      rw [stop, hidx, hlength]
      omega
    · have := hinside hr
      omega
  | @token n t ht =>
    have ha := Cursor.answered_afterCalls s n
    rw [ht] at ha
    obtain ⟨hloc, hstop, _⟩ := ha
    exact ⟨hloc, by omega⟩
  | @fault n f hf =>
    have ha := Cursor.answered_afterCalls s n
    rw [hf] at ha
    obtain ⟨hloc, hstop⟩ := ha
    exact ⟨hloc, by omega⟩
  | extend _ hstop hq ih =>
    obtain ⟨hloc, hend⟩ := ih.1.extend hstop hq
    exact ⟨hloc, by omega⟩
  | advance _ hstop hq ih =>
    obtain ⟨hloc, hend⟩ := ih.1.advance hstop hq
    exact ⟨hloc, by omega⟩

structure Layout (s : Text) (p : Span) where
  before : Text
  held : Text
  rest : Text
  earlier : List Text
  start : Text
  full : List Text
  last : Text
  source_eq : s = before ++ (held ++ rest)
  idx_eq : p.idx = before.length
  length_eq : p.length = held.length + 1
  first_eq : p.first = ⟨1 + earlier.length, start.length + 1⟩
  last_eq : p.last = ⟨1 + earlier.length + full.length, last.length + 1⟩
  start_free : '\n' ∉ start
  last_free : '\n' ∉ last
  lines_eq : s.lines = earlier ++ (start ++ (held ++ rest)).lines
  lines_held : ∀ rest, (start ++ (held ++ rest)).lines = full ++ (last ++ rest).lines

lemma Located.layout (h : p.Located s) (hstop : p.stop - 1 ≤ s.length) : Nonempty (p.Layout s) := by
  obtain ⟨hidx, hlength, hfirst, hlast⟩ := h
  rw [stop] at hstop hlast
  obtain ⟨before, tail, rfl, hbefore⟩ : ∃ before tail, s = before ++ tail ∧
      p.idx = (before.length : Int) := by
    refine ⟨s.take p.idx.toNat, s.drop p.idx.toNat, (List.take_append_drop _ s).symm, ?_⟩
    rw [List.length_take]
    omega
  obtain ⟨held, rest, rfl, hheld⟩ : ∃ held rest, tail = held ++ rest ∧
      p.length = held.length + 1 := by
    refine ⟨tail.take (p.length - 1).toNat, tail.drop (p.length - 1).toNat,
      (List.take_append_drop _ tail).symm, ?_⟩
    rw [List.length_append] at hstop
    rw [List.length_take]
    omega
  have hfrom : p.first = ({} : Place).afterText before := by
    rw [hfirst, hbefore, Int.toNat_natCast, Text.placeAt_length_append]
  have hto : p.last = p.first.afterText held := by
    have hend : (p.idx + p.length - 1).toNat = before.length + held.length := by omega
    rw [hlast, hend, hfirst, hbefore, Int.toNat_natCast, Text.afterText_placeAt]
  obtain ⟨earlier, start, hstart, hlines, hplace⟩ :=
    Text.exists_lines_afterText 1 List.not_mem_nil before
  obtain ⟨full, last, hfree, hheldLines, hreach⟩ :=
    Text.exists_lines_afterText (1 + earlier.length) hstart held
  have hfirst' : p.first = ⟨1 + earlier.length, start.length + 1⟩ := by
    rw [hfrom, ← hplace]
    rfl
  exact ⟨⟨before, held, rest, earlier, start, full, last, rfl, hbefore, hheld, hfirst',
    by rw [hto, hfirst', hreach], hstart, hfree, hlines (held ++ rest), hheldLines⟩⟩

lemma Held.layout (h : p.Held s) : Nonempty (p.Layout s) :=
  h.located.1.layout h.located.2

namespace Layout

variable (v : p.Layout s)
include v

lemma first_line : p.first.line = 1 + v.earlier.length := by
  rw [v.first_eq]

lemma first_column : p.first.column = v.start.length + 1 := by
  rw [v.first_eq]

lemma last_line : p.last.line = 1 + v.earlier.length + v.full.length := by
  rw [v.last_eq]

lemma last_column : p.last.column = v.last.length + 1 := by
  rw [v.last_eq]

lemma last_of_one_line (h : p.first.line = p.last.line) : v.last = v.start ++ v.held := by
  have hfull : v.full = [] := by
    rw [v.first_line, v.last_line] at h
    apply List.eq_nil_of_length_eq_zero
    omega
  have hlines := v.lines_held []
  rw [hfull, List.nil_append, List.append_nil, List.append_nil] at hlines
  exact (Text.lines_injective hlines).symm

lemma isSingle_iff : p.isSingle = true ↔ p.length = 1 := by
  rw [isSingle, decide_eq_true_eq]
  constructor
  · intro h
    have hlast := v.last_of_one_line (by rw [h])
    have hcolumn : p.first.column = p.last.column := by rw [h]
    rw [v.first_column, v.last_column, hlast, List.length_append] at hcolumn
    rw [v.length_eq]
    omega
  · intro h
    have hheld : v.held = [] := by
      apply List.eq_nil_of_length_eq_zero
      have := v.length_eq
      omega
    have hlines := v.lines_held []
    rw [hheld, List.append_nil, List.append_nil, List.append_nil,
      Text.lines_of_not_mem v.start_free, Text.lines_of_not_mem v.last_free] at hlines
    have hfull : v.full = [] := by
      have := congrArg List.length hlines
      rw [List.length_append, List.length_singleton, List.length_singleton] at this
      apply List.eq_nil_of_length_eq_zero
      omega
    rw [hfull, List.nil_append, List.singleton_inj] at hlines
    simp [v.first_eq, v.last_eq, hfull, hlines]

lemma exists_shown : ∃ shown later, s.lines = v.earlier ++ (shown ++ later) ∧
    shown.length = v.full.length + 1 := by
  obtain ⟨y, later, hlast⟩ := Text.exists_first_line v.last_free v.rest
  refine ⟨v.full ++ [v.last ++ y], later, ?_, ?_⟩
  · rw [v.lines_eq, v.lines_held, hlast, List.append_assoc, List.singleton_append]
  · rw [List.length_append, List.length_singleton]

end Layout

end Span

end BraceMarkup
