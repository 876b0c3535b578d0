import BraceMarkup.Proofs.Token.Pieces
import Mathlib.Data.Nat.Find

/-! Where spans lie. However often a cursor is asked for a token, and whatever it has answered, the
span it stands on and the spans it gives tell their lines and columns as the source has them. -/

namespace BraceMarkup

namespace Text

def lineStart (s : Text) (i : Nat) : Nat :=
  Nat.findGreatest (fun j => s[j - 1]? = some '\n') i

def placeAt (s : Text) (i : Nat) : Place where
  line := 1 + (s.take i).count '\n'
  column := i - s.lineStart i + 1

@[simp] lemma placeAt_zero (s : Text) : s.placeAt 0 = {} := by
  simp [placeAt, lineStart]

lemma lineStart_succ {s : Text} {i : Nat} {c : Char} (h : s[i]? = some c) :
    s.lineStart (i + 1) = if c = '\n' then i + 1 else s.lineStart i := by
  simp [lineStart, Nat.findGreatest_succ, h]

lemma placeAt_succ {s : Text} {i : Nat} {c : Char} (h : s[i]? = some c) :
    s.placeAt (i + 1) = (s.placeAt i).after c := by
  have htake : s.take (i + 1) = s.take i ++ [c] := by
    rw [List.take_add_one, h, Option.toList_some]
  by_cases hc : c = '\n'
  · simp [placeAt, Place.after, htake, lineStart_succ h, hc, add_assoc]
  · simp only [placeAt, Place.after, htake, lineStart_succ h, hc, if_false, List.count_append,
      List.count_singleton, beq_iff_eq, Nat.add_zero, Nat.cast_succ, Place.mk.injEq, true_and]
    omega

lemma afterText_placeAt (before x rest : Text) :
    ((before ++ (x ++ rest)).placeAt before.length).afterText x =
      (before ++ (x ++ rest)).placeAt (before.length + x.length) := by
  induction x generalizing before with
  | nil => rfl
  | cons c x ih =>
    have hc : (before ++ (c :: x ++ rest))[before.length]? = some c := by simp
    have hx := ih (before ++ [c])
    simp only [List.append_assoc, List.singleton_append, List.length_append,
      List.length_singleton] at hx
    calc ((before ++ (c :: x ++ rest)).placeAt before.length).afterText (c :: x)
        = (((before ++ (c :: x ++ rest)).placeAt before.length).after c).afterText x := rfl
      _ = ((before ++ (c :: x ++ rest)).placeAt (before.length + 1)).afterText x := by
          rw [placeAt_succ hc]
      _ = (before ++ (c :: x ++ rest)).placeAt (before.length + (c :: x).length) := by
          rw [List.cons_append, hx, List.length_cons, Nat.add_assoc, Nat.add_comm 1]

lemma slice_of_append (before x rest : Text) :
    (before ++ (x ++ rest)).slice before.length (before.length + x.length) = x := by
  have h₁ : ¬ (before.length : Int) < 0 := by omega
  have h₂ : ¬ (before.length + x.length : Int) < 0 := by omega
  have h₃ : (before.length + x.length : Int).toNat = before.length + x.length := by omega
  simp [slice, index, h₁, h₂, h₃, ← List.append_assoc]

lemma charAt_length (before rest : Text) (c : Char) (h : fitsWord before.length = true) :
    (before ++ c :: rest).charAt before.length = .ok c := by
  have hindex : (before ++ c :: rest).index before.length = before.length :=
    if_neg (by omega)
  simp [charAt, hindex, h]

end Text

structure Span.Located (s : Text) (p : Span) : Prop where
  idx_nonneg : 0 ≤ p.idx
  length_pos : 1 ≤ p.length
  first_eq : p.first = s.placeAt p.idx.toNat
  last_eq : p.last = s.placeAt (p.stop - 1).toNat

lemma Span.located_reaching (before x rest : Text) :
    (reaching before.length ((before ++ (x ++ rest)).placeAt before.length) x).Located
      (before ++ (x ++ rest)) := by
  have hlast : ((before.length : Int) + (x.length + 1) - 1).toNat = before.length + x.length := by
    omega
  refine ⟨Int.natCast_nonneg _, ?_, ?_, ?_⟩
  · simp only [reaching]
    omega
  · simp [reaching]
  · simp only [reaching, stop, hlast, Text.afterText_placeAt]

namespace Cursor

structure StandsIn (s before : Text) (c : Cursor) : Prop where
  source_eq : s = before ++ (c.held ++ c.rest)
  idx_eq : c.idx = before.length
  place_eq : c.place = s.placeAt before.length
  held_eq : c.rest = [] → c.held = []

variable {s before x rest : Text} {c : Cursor}

lemma standsIn_ofText (s : Text) : (ofText s).StandsIn s [] := by
  constructor <;> simp [ofText]

namespace StandsIn

lemma source_of_rest (h : c.StandsIn s before) (hr : c.rest = x ++ rest) :
    s = before ++ ((c.held ++ x) ++ rest) := by
  rw [h.source_eq, hr, List.append_assoc]

lemma past (h : c.StandsIn s before) (hr : c.rest = x ++ rest) :
    (c.past x rest).StandsIn s (before ++ (c.held ++ x)) := by
  have hs := h.source_of_rest hr
  refine ⟨?_, ?_, ?_, fun _ => rfl⟩
  · simpa [Cursor.past] using hs
  · simp [Cursor.past, h.idx_eq]
  · simp only [Cursor.past, h.place_eq]
    rw [hs, Text.afterText_placeAt]
    simp only [List.length_append]

lemma holdAll (h : c.StandsIn s before) (hr : c.rest ≠ []) : c.holdAll.StandsIn s before := by
  have hne : c.held ++ c.rest ≠ [] := by simp [hr]
  refine ⟨?_, h.idx_eq, h.place_eq, ?_⟩
  · simp only [Cursor.holdAll, List.getLast?_eq_some_getLast hne, Option.toList_some,
      List.dropLast_append_getLast]
    exact h.source_eq
  · simp [Cursor.holdAll, List.getLast?_eq_some_getLast hne]

lemma located_spanOver (h : c.StandsIn s before) (hr : c.rest = x ++ rest) (hx : x ≠ []) :
    (c.spanOver x).Located s ∧ (c.spanOver x).stop ≤ s.length ∧
      c.held ++ x = (c.spanOver x).text s := by
  have hne : c.held ++ x ≠ [] := by simp [hx]
  have hs := h.source_of_rest hr
  have hs' : s = before ++ ((c.held ++ x).dropLast ++ ((c.held ++ x).getLast hne :: rest)) := by
    rw [hs, List.append_cons, List.dropLast_append_getLast]
  have hstop : (c.spanOver x).stop = before.length + (c.held ++ x).length := by
    have := List.length_pos_iff.mpr hne
    simp only [spanOver, Span.reaching, Span.stop, h.idx_eq, List.length_dropLast]
    omega
  refine ⟨?_, ?_, ?_⟩
  · have hloc := Span.located_reaching before (c.held ++ x).dropLast
      ((c.held ++ x).getLast hne :: rest)
    rw [← hs'] at hloc
    rwa [spanOver, h.idx_eq, h.place_eq]
  · rw [hstop, hs]
    simp only [List.length_append]
    omega
  · rw [Span.text, hstop]
    have hidx : (c.spanOver x).idx = before.length := by simp [spanOver, Span.reaching, h.idx_eq]
    rw [hidx, hs]
    exact_mod_cast (Text.slice_of_append before (c.held ++ x) rest).symm

lemma located_span (h : c.StandsIn s before) :
    c.span.Located s ∧
      (c.rest ≠ [] → c.span.stop ≤ s.length) ∧
      (c.rest = [] → c.span.idx = s.length ∧ c.span.length = 1) := by
  refine ⟨?_, ?_, ?_⟩
  · have hloc := Span.located_reaching before c.held c.rest
    rw [← h.source_eq] at hloc
    rwa [span, h.idx_eq, h.place_eq]
  · intro hr
    have hpos := List.length_pos_iff.mpr hr
    rw [h.source_eq]
    simp only [span, Span.reaching, Span.stop, h.idx_eq, List.length_append]
    omega
  · intro hr
    have hheld := h.held_eq hr
    have hlen : s.length = before.length := by simp [h.source_eq, hr, hheld]
    simp [span, Span.reaching, h.idx_eq, hheld, hlen]

section Steps

variable {z : Char}

lemma next_span (h : c.StandsIn s before) (hword : fitsWord s.length = true)
    (hr : c.rest = z :: rest) : c.span.next s = .ok (c.place.afterText (c.held ++ [z])) := by
  have hs : s = (before ++ c.held) ++ z :: rest := by
    rw [h.source_eq, hr, List.append_assoc]
  have hlength : ((before ++ c.held).length : Int) < s.length := by
    simp [hs]
  have hlast : c.span.stop - 1 = (before ++ c.held).length := by
    simp only [span, Span.reaching, Span.stop, h.idx_eq, List.length_append]
    omega
  have hchar : s.charAt (before ++ c.held).length = .ok z := by
    rw [hs]
    exact Text.charAt_length _ _ _ (Text.fitsWord_of_le (Int.natCast_nonneg _) hlength.le hword)
  rw [Span.next, hlast, if_pos hlength, hchar, Place.afterText, List.foldl_append]
  rfl

lemma extend_span (h : c.StandsIn s before) (hword : fitsWord s.length = true)
    (hr : c.rest = z :: rest) :
    c.span.extend s = .ok (span { c with held := c.held ++ [z], rest }) := by
  have hlength : ((c.held ++ [z]).length : Int) = c.held.length + 1 := by simp
  rw [Span.extend, h.next_span hword hr, span, span, Span.reaching, Span.reaching, hlength]
  rfl

lemma advance_span (h : c.StandsIn s before) (hword : fitsWord s.length = true)
    (hr : c.rest = z :: rest) : c.span.advance s = .ok (c.past [z] rest).span := by
  have hstop : c.span.stop = (c.idx + (c.held ++ [z]).length : Nat) := by
    simp only [span, Span.reaching, Span.stop, List.length_append, List.length_singleton]
    omega
  rw [Span.advance, h.next_span hword hr, hstop]
  rfl

lemma hold (h : c.StandsIn s before) (hr : c.rest = z :: rest) (hne : rest ≠ []) :
    StandsIn s before { c with held := c.held ++ [z], rest } where
  source_eq := by rw [h.source_eq, hr, List.append_assoc, List.singleton_append]
  idx_eq := h.idx_eq
  place_eq := h.place_eq
  held_eq hnil := absurd hnil hne

/-- The span over a text is the span of the cursor, extended one character at a time. A step behind
it is a step of the cursor past the text. -/
lemma steps_spanOver (h : c.StandsIn s before) (hword : fitsWord s.length = true)
    (hr : c.rest = x ++ z :: rest) :
    Relation.ReflTransGen (fun p q => p.extend s = .ok q) c.span (c.spanOver (x ++ [z])) ∧
      (c.spanOver (x ++ [z])).advance s = .ok (c.past (x ++ [z]) rest).span := by
  induction x generalizing c with
  | nil =>
    have hspan : c.spanOver [z] = c.span := by rw [spanOver, List.dropLast_concat, span]
    rw [List.nil_append, hspan]
    exact ⟨.refl, h.advance_span hword hr⟩
  | cons y x ih =>
    obtain ⟨hextend, hadvance⟩ := ih (h.hold hr (by simp)) rfl
    simp only [spanOver, Cursor.past, List.append_assoc, List.singleton_append] at hextend hadvance
    exact ⟨hextend.head (h.extend_span hword hr), hadvance⟩

end Steps

end StandsIn

lemma behind_of_scan {d : Cursor} {t : Token} (h : c.scan = (.ok (some t), d)) :
    d.idx = t.span.stop ∧ d.held = [] := by
  fun_induction Cursor.scan c with
  | case1 => simp at h
  | case2 c x rest hr ih => exact ih h
  | case3 c kind x rest hr =>
    obtain ⟨ht, rfl⟩ := Prod.mk.inj h
    obtain rfl := Option.some.inj (Except.ok.inj ht)
    have hs := Token.Reading.splits_first c.rest
    rw [hr] at hs
    have hpos : 0 < (c.held ++ x).length := List.length_pos_iff.mpr (by simp [hs.1])
    refine ⟨?_, rfl⟩
    simp only [past, spanOver, Span.reaching, Span.stop, List.length_dropLast]
    omega
  | case4 => simp at h
  | case5 => simp at h

lemma rest_of_scan {d : Cursor} (h : c.scan = (.ok none, d)) : d.rest = [] := by
  fun_induction Cursor.scan c with
  | case1 c hr =>
    obtain ⟨_, rfl⟩ := Prod.mk.inj h
    exact Token.Reading.first_eq_finished_iff.mp hr
  | case2 c x rest hr ih => exact ih h
  | case3 => simp at h
  | case4 => simp at h
  | case5 => simp at h

def Answered (s : Text) (idx : Nat) : Except Fault (Option Token) → Prop
  | .ok none => True
  | .ok (some t) => t.span.Located s ∧ t.span.stop ≤ s.length ∧ t.lexeme = t.span.text s ∧
      idx ≤ t.span.idx
  | .error fault => fault.span.Located s ∧ fault.span.stop ≤ s.length

lemma Answered.of_le {idx idx' : Nat} {answer : Except Fault (Option Token)}
    (h : Answered s idx answer) (hle : idx' ≤ idx) : Answered s idx' answer := by
  match answer with
  | .ok none => trivial
  | .ok (some t) =>
    obtain ⟨hloc, hstop, htext, hidx⟩ := h
    exact ⟨hloc, hstop, htext, by omega⟩
  | .error fault => exact h

lemma StandsIn.scan (h : c.StandsIn s before) :
    ∃ more, c.scan.2.StandsIn s (before ++ more) ∧ Answered s c.idx c.scan.1 := by
  fun_induction Cursor.scan c generalizing before with
  | case1 c hr => exact ⟨[], by simpa using h, trivial⟩
  | case2 c x rest hr ih =>
    have hs := Token.Reading.splits_first c.rest
    rw [hr] at hs
    obtain ⟨more, hmore, ha⟩ := ih (h.past hs.2)
    refine ⟨c.held ++ x ++ more, by simpa using hmore, ha.of_le ?_⟩
    simp [Cursor.past]
  | case3 c kind x rest hr =>
    have hs := Token.Reading.splits_first c.rest
    rw [hr] at hs
    obtain ⟨hloc, hstop, htext⟩ := h.located_spanOver hs.2 hs.1
    exact ⟨c.held ++ x, h.past hs.2, hloc, hstop, htext, le_rfl⟩
  | case4 c cause hr =>
    have hne : c.rest ≠ [] := by
      intro hnil
      simp [hnil, Token.Reading.first] at hr
    obtain ⟨hloc, hstop, _⟩ := h.located_spanOver (List.append_nil c.rest).symm hne
    exact ⟨[], by simpa using h.holdAll hne, hloc, hstop⟩
  | case5 c char hr =>
    have hne : c.rest ≠ [] := by
      intro hnil
      simp [hnil, Token.Reading.first] at hr
    obtain ⟨hloc, hstop, _⟩ := h.located_span
    exact ⟨[], by simpa using h, hloc, hstop hne⟩

def afterCalls (c : Cursor) : Nat → Cursor
  | 0 => c
  | n + 1 => (c.afterCalls n).scan.2

lemma exists_standsIn_afterCalls (s : Text) (n : Nat) :
    ∃ before, ((ofText s).afterCalls n).StandsIn s before := by
  induction n with
  | zero => exact ⟨[], standsIn_ofText s⟩
  | succ n ih =>
    obtain ⟨before, h⟩ := ih
    obtain ⟨more, hmore, _⟩ := h.scan
    exact ⟨before ++ more, hmore⟩

lemma answered_afterCalls (s : Text) (n : Nat) :
    Answered s ((ofText s).afterCalls n).idx ((ofText s).afterCalls n).scan.1 := by
  obtain ⟨before, h⟩ := exists_standsIn_afterCalls s n
  obtain ⟨_, _, ha⟩ := h.scan
  exact ha

lemma idx_afterCalls_mono (s : Text) : Monotone fun n => ((ofText s).afterCalls n).idx := by
  apply monotone_nat_of_le_succ
  intro n
  obtain ⟨before, h⟩ := exists_standsIn_afterCalls s n
  obtain ⟨more, hmore, _⟩ := h.scan
  have hidx : ((ofText s).afterCalls (n + 1)).idx = (before ++ more).length := hmore.idx_eq
  simp [h.idx_eq, hidx]

/-- After any number of calls on one source, those that failed included: the span of the cursor, of
a token it gives and of a fault is at least one character long, and the places it tells are those
that its index and its length give. Only the cursor can stand behind the end of the source. A token
has the text of its span, starts behind all tokens given before, and leaves the cursor right behind
it. -/
theorem spans_of_calls (s : Text) (n : Nat) :
    ((ofText s).afterCalls n).span.Located s ∧
    (((ofText s).afterCalls n).span.stop ≤ s.length ∨
      ((ofText s).afterCalls n).span.idx = s.length ∧
        ((ofText s).afterCalls n).span.length = 1) ∧
    (∀ fault, ((ofText s).afterCalls n).scan.1 = .error fault →
      fault.span.Located s ∧ fault.span.stop ≤ s.length) ∧
    (∀ t, ((ofText s).afterCalls n).scan.1 = .ok (some t) →
      t.span.Located s ∧ t.span.stop ≤ s.length ∧ t.lexeme = t.span.text s ∧
      ((ofText s).afterCalls (n + 1)).span.idx = t.span.stop ∧
      ((ofText s).afterCalls (n + 1)).span.length = 1 ∧
      ∀ m < n, ∀ u, ((ofText s).afterCalls m).scan.1 = .ok (some u) →
        u.span.stop ≤ t.span.idx) := by
  obtain ⟨before, h⟩ := exists_standsIn_afterCalls s n
  obtain ⟨hloc, hinside, hend⟩ := h.located_span
  have ha := answered_afterCalls s n
  refine ⟨hloc, ?_, ?_, ?_⟩
  · by_cases hr : ((ofText s).afterCalls n).rest = []
    · exact .inr (hend hr)
    · exact .inl (hinside hr)
  · intro fault hf
    rw [hf] at ha
    exact ha
  · intro t ht
    rw [ht] at ha
    obtain ⟨htloc, htstop, htext, hidx⟩ := ha
    obtain ⟨hd, hheld⟩ := behind_of_scan (Prod.ext ht rfl)
    refine ⟨htloc, htstop, htext, hd, ?_, ?_⟩
    · simp [afterCalls, span, Span.reaching, hheld]
    · intro m hm u hu
      have hu' : (((ofText s).afterCalls (m + 1)).idx : Int) = u.span.stop :=
        (behind_of_scan (Prod.ext hu rfl)).1
      have hmono : ((ofText s).afterCalls (m + 1)).idx ≤ ((ofText s).afterCalls n).idx :=
        idx_afterCalls_mono s hm
      omega

end Cursor

end BraceMarkup
