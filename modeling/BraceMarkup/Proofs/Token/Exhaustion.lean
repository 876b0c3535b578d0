import BraceMarkup.Proofs.Token.Failure

/-! What a cursor answers when it is asked again and again. After finitely many tokens it comes to
rest: it has nothing more to give, or it repeats one fault. After something without an end it may
still give all of that as one token, and then nothing more. -/

namespace BraceMarkup

namespace Fault.Cause

def malformed : List Cause :=
  [.malformedString, .malformedHtml, .malformedScript, .malformedStyle]

end Fault.Cause

namespace Token.Endless

lemma cause_mem {cause : Fault.Cause} {s : Text} (h : Endless cause s) :
    cause ∈ Fault.Cause.malformed := by
  cases h <;> simp [Fault.Cause.malformed]

end Token.Endless

namespace Cursor

open Token

variable {c d : Cursor} {a : Except Fault (Option Token)} {fault : Fault} {n : Nat}

def answer (c : Cursor) (n : Nat) : Except Fault (Option Token) :=
  (c.afterCalls n).scan.1

def AlwaysFrom (c : Cursor) (k : Nat) (a : Except Fault (Option Token)) : Prop :=
  ∀ n ≥ k, c.answer n = a

lemma afterCalls_add (c : Cursor) (m n : Nat) :
    c.afterCalls (m + n) = (c.afterCalls m).afterCalls n := by
  induction n with
  | zero => rfl
  | succ n ih => rw [Nat.add_succ, afterCalls, afterCalls, ih]

lemma afterCalls_one_add (c : Cursor) (n : Nat) :
    c.afterCalls (n + 1) = c.scan.2.afterCalls n := by
  rw [Nat.add_comm, afterCalls_add]
  rfl

lemma afterCalls_of_scan_self (h : c.scan = (a, c)) (n : Nat) : c.afterCalls n = c := by
  induction n with
  | zero => rfl
  | succ n ih => rw [afterCalls, ih, h]

lemma alwaysFrom_of_scan_self {k : Nat} (h : (c.afterCalls k).scan = (a, c.afterCalls k)) :
    c.AlwaysFrom k a ∧ ∀ n ≥ k, c.afterCalls n = c.afterCalls k := by
  have hstays (n : Nat) (hn : n ≥ k) : c.afterCalls n = c.afterCalls k := by
    obtain ⟨m, rfl⟩ := Nat.exists_eq_add_of_le hn
    rw [afterCalls_add, afterCalls_of_scan_self h]
  refine ⟨fun n hn => ?_, hstays⟩
  rw [answer, hstays n hn, h]

lemma alwaysFrom_none_of_rest_nil {k : Nat} (h : (c.afterCalls k).rest = []) :
    c.AlwaysFrom k (.ok none) :=
  (alwaysFrom_of_scan_self (scan_of_rest_nil h)).1

lemma exists_first_end (c : Cursor) : ∃ k ≤ c.rest.length,
    (∀ n < k, ∃ t, c.answer n = .ok (some t)) ∧ ∀ t, c.answer k ≠ .ok (some t) := by
  induction hn : c.rest.length using Nat.strong_induction_on generalizing c with
  | _ m ih =>
    subst hn
    by_cases htoken : ∃ t, c.scan.1 = .ok (some t)
    · obtain ⟨t, ht⟩ := htoken
      have hlt := length_rest_of_scan (Prod.ext ht rfl)
      obtain ⟨k, hk, htokens, hend⟩ := ih _ hlt c.scan.2 rfl
      refine ⟨k + 1, by omega, fun n hn => ?_, fun t => ?_⟩
      · cases n with
        | zero => exact ⟨t, ht⟩
        | succ n =>
          rw [answer, afterCalls_one_add]
          exact htokens n (by omega)
      · rw [answer, afterCalls_one_add]
        exact hend t
    · exact ⟨0, Nat.zero_le _, by simp, fun t ht => htoken ⟨t, ht⟩⟩

lemma exists_rest_holdAll (h : c.rest ≠ []) : ∃ ch, c.holdAll.rest = [ch] := by
  have hne : c.held ++ c.rest ≠ [] := by simp [h]
  exact ⟨_, by rw [holdAll, List.getLast?_eq_some_getLast hne, Option.toList_some]⟩

lemma scan_of_error (h : c.scan = (.error fault, d)) :
    ((∃ ch, fault.cause = .invalidCharacter ch) ∧ d.scan = (.error fault, d)) ∨
    (fault.cause ∈ Fault.Cause.malformed ∧ d.span = fault.span ∧ ∃ ch, d.rest = [ch]) := by
  fun_induction Cursor.scan c with
  | case1 => simp at h
  | case2 c x rest hr ih => exact ih h
  | case3 => simp at h
  | case4 c cause hr =>
    obtain ⟨hf, rfl⟩ := Prod.mk.inj h
    obtain rfl := Except.error.inj hf
    have hendless := Reading.first_eq_endless_iff.mp hr
    have hlast := exists_rest_holdAll (Fails.endless hendless).ne_nil
    exact .inr ⟨hendless.cause_mem, rfl, hlast⟩
  | case5 c ch hr =>
    obtain ⟨hf, rfl⟩ := Prod.mk.inj h
    obtain rfl := Except.error.inj hf
    exact .inl ⟨⟨ch, rfl⟩, scan_of_stray hr⟩

lemma spanOver_last {ch : Char} : d.spanOver [ch] = d.span := by
  simp [spanOver, span]

lemma scan_of_rest_singleton {ch : Char} (h : d.rest = [ch]) :
    (d.scan.1 = .ok none ∧ d.scan.2.rest = []) ∨
    (∃ t, d.scan.1 = .ok (some t) ∧ t.span = d.span ∧ d.scan.2.rest = []) ∨
    ∃ cause, d.scan = (.error ⟨cause, d.span⟩, d) := by
  have hs := Reading.splits_first d.rest
  cases hr : Reading.first d.rest with
  | finished => simp [Reading.first_eq_finished_iff, h] at hr
  | skipped x rest =>
    rw [hr, h] at hs
    obtain ⟨hx, rfl⟩ : x = [ch] ∧ rest = [] := by
      cases x <;> simp_all [Reading.Splits]
    have hend := @scan_of_rest_nil (d.past x []) rfl
    rw [scan_of_skipped hr, hend]
    exact .inl ⟨rfl, rfl⟩
  | token kind x rest =>
    rw [hr, h] at hs
    obtain ⟨rfl, rfl⟩ : x = [ch] ∧ rest = [] := by
      cases x <;> simp_all [Reading.Splits]
    rw [scan_of_token hr]
    exact .inr (.inl ⟨_, rfl, spanOver_last, rfl⟩)
  | endless cause =>
    have hstay : d.holdAll = d := by
      cases d
      simp_all [holdAll]
    rw [scan_of_endless hr, hstay, h, spanOver_last]
    exact .inr (.inr ⟨cause, rfl⟩)
  | stray char =>
    rw [scan_of_stray hr]
    exact .inr (.inr ⟨_, rfl⟩)

lemma stop_le_stop_past {x rest : Text} (hx : x ≠ []) :
    c.span.stop ≤ (c.past x rest).span.stop := by
  have := List.length_pos_iff.mpr hx
  simp only [span, past, Span.reaching, Span.stop, List.length_append, List.length_nil]
  omega

lemma stop_le_stop_scan (c : Cursor) : c.span.stop ≤ c.scan.2.span.stop := by
  fun_induction Cursor.scan c with
  | case1 c hr => exact le_rfl
  | case2 c x rest hr ih =>
    have hs := Reading.splits_first c.rest
    rw [hr] at hs
    exact (stop_le_stop_past hs.1).trans ih
  | case3 c kind x rest hr =>
    have hs := Reading.splits_first c.rest
    rw [hr] at hs
    exact stop_le_stop_past hs.1
  | case4 c cause hr =>
    have hne := (Fails.endless (Reading.first_eq_endless_iff.mp hr)).ne_nil
    have := List.length_pos_iff.mpr hne
    simp only [span, holdAll, Span.reaching, Span.stop, List.length_dropLast, List.length_append]
    omega
  | case5 c ch hr => exact le_rfl

lemma StandsIn.stop_eq_length {s before : Text} {ch : Char} (h : d.StandsIn s before)
    (hr : d.rest = [ch]) : d.span.stop = s.length := by
  rw [h.source_eq, hr]
  simp only [span, Span.reaching, Span.stop, h.idx_eq, List.length_append, List.length_singleton]
  omega

/-- What the calls after a fault at call `k` are answered: after a character that starts nothing
the same fault, with the cursor unmoved; after something without an end nothing, or all of it as
one token and then nothing, or one fault about all of it. -/
inductive SettlesAfter (s : Text) (k : Nat) (fault : Fault) : Prop
  | stray (ch : Char) (cause : fault.cause = .invalidCharacter ch)
      (always : (ofText s).AlwaysFrom k (.error fault))
      (stays : ∀ n > k, (ofText s).afterCalls n = (ofText s).afterCalls (k + 1))
  | malformed (cause : fault.cause ∈ Fault.Cause.malformed)
      (span : ((ofText s).afterCalls (k + 1)).span = fault.span)
      (stop : fault.span.stop = s.length)
      (later : (ofText s).AlwaysFrom (k + 1) (.ok none) ∨
        (∃ t, (ofText s).answer (k + 1) = .ok (some t) ∧ t.span = fault.span ∧
          t.lexeme = fault.span.text s ∧ (ofText s).AlwaysFrom (k + 2) (.ok none)) ∨
        ∃ other : Fault, other.span = fault.span ∧
          (ofText s).AlwaysFrom (k + 1) (.error other))

lemma settlesAfter_of_answer {s : Text} {k : Nat} (h : (ofText s).answer k = .error fault) :
    SettlesAfter s k fault := by
  have hscan : ((ofText s).afterCalls k).scan = (.error fault, (ofText s).afterCalls (k + 1)) :=
    Prod.ext h rfl
  obtain ⟨⟨ch, hch⟩, hself⟩ | ⟨hcause, hspan, ch, hrest⟩ := scan_of_error hscan
  · obtain ⟨halways, hstays⟩ := alwaysFrom_of_scan_self hself
    refine .stray ch hch (fun n hn => ?_) hstays
    obtain rfl | hn := Nat.eq_or_lt_of_le hn
    · exact h
    · exact halways n hn
  · obtain ⟨before, hstands⟩ := exists_standsIn_afterCalls s (k + 1)
    refine .malformed hcause hspan (hspan ▸ hstands.stop_eq_length hrest) ?_
    obtain ⟨hnone, hnil⟩ | ⟨t, ht, htspan, hnil⟩ | ⟨cause, hself⟩ := scan_of_rest_singleton hrest
    · refine .inl fun n hn => ?_
      obtain rfl | hn := Nat.eq_or_lt_of_le hn
      · exact hnone
      · exact alwaysFrom_none_of_rest_nil (k := k + 2) hnil n hn
    · have hlexeme := answered_afterCalls s (k + 1)
      rw [ht] at hlexeme
      refine .inr (.inl ⟨t, ht, htspan.trans hspan, ?_, alwaysFrom_none_of_rest_nil hnil⟩)
      rw [hlexeme.2.2.1, htspan, hspan]
    · exact .inr (.inr ⟨⟨cause, _⟩, hspan, (alwaysFrom_of_scan_self hself).1⟩)

/-- Calls on one source give at most as many tokens as it has characters, and then nothing for ever,
or a fault after which the answers settle. The cursor never moves back. -/
theorem answers_settle (s : Text) :
    (∃ k ≤ s.length, (∀ n < k, ∃ t, (ofText s).answer n = .ok (some t)) ∧
      ((ofText s).AlwaysFrom k (.ok none) ∨
        ∃ fault, (ofText s).answer k = .error fault ∧ SettlesAfter s k fault)) ∧
    (Monotone fun n => ((ofText s).afterCalls n).span.idx) ∧
    Monotone fun n => ((ofText s).afterCalls n).span.stop := by
  refine ⟨?_, ?_, ?_⟩
  · obtain ⟨k, hk, htokens, hend⟩ := exists_first_end (ofText s)
    refine ⟨k, hk, htokens, ?_⟩
    cases ha : (ofText s).answer k with
    | error fault => exact .inr ⟨fault, rfl, settlesAfter_of_answer ha⟩
    | ok t =>
      cases t with
      | some t => exact (hend t ha).elim
      | none =>
        have hnil : ((ofText s).afterCalls (k + 1)).rest = [] := rest_of_scan (Prod.ext ha rfl)
        refine .inl fun n hn => ?_
        obtain rfl | hn := Nat.eq_or_lt_of_le hn
        · exact ha
        · exact alwaysFrom_none_of_rest_nil hnil n hn
  · intro m n hmn
    exact Int.ofNat_le.mpr (idx_afterCalls_mono s hmn)
  · exact monotone_nat_of_le_succ fun n => stop_le_stop_scan _

end Cursor

end BraceMarkup
