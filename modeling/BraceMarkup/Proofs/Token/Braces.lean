import BraceMarkup.Token
import Mathlib.Order.Bounds.Basic
import Mathlib.Tactic

namespace BraceMarkup.Token

variable {t : Token} {u v w ts : List Token}

def Kind.opens : Kind → Int
  | .leftBrace => 1
  | .rightBrace => -1
  | .name | .string | .html | .script | .style | .equal | .semicolon => 0

def openBraces (ts : List Token) : Int :=
  (ts.map (·.kind.opens)).sum

def mostOpen : List Token → Int
  | [] => 0
  | t :: ts => max 0 (t.kind.opens + mostOpen ts)

@[simp] lemma openBraces_nil : openBraces [] = 0 := rfl

@[simp] lemma openBraces_cons (t : Token) (ts : List Token) :
    openBraces (t :: ts) = t.kind.opens + openBraces ts :=
  List.sum_cons

@[simp] lemma openBraces_append (u v : List Token) :
    openBraces (u ++ v) = openBraces u + openBraces v := by
  rw [openBraces, List.map_append, List.sum_append]
  rfl

lemma mostOpen_nonneg (ts : List Token) : 0 ≤ mostOpen ts := by
  cases ts with
  | nil => exact le_rfl
  | cons t ts => exact le_max_left _ _

lemma openBraces_le_mostOpen (h : w <+: ts) : openBraces w ≤ mostOpen ts := by
  induction ts generalizing w with
  | nil =>
    rw [List.prefix_nil.mp h]
    exact le_rfl
  | cons t ts ih =>
    rcases List.prefix_cons_iff.mp h with rfl | ⟨v, rfl, hv⟩
    · exact mostOpen_nonneg _
    · have hle := ih hv
      rw [openBraces_cons, mostOpen]
      omega

lemma exists_prefix_mostOpen (ts : List Token) : ∃ w, w <+: ts ∧ mostOpen ts = openBraces w := by
  induction ts with
  | nil => exact ⟨[], List.nil_prefix, rfl⟩
  | cons t ts ih =>
    obtain ⟨w, hw, hopen⟩ := ih
    rcases le_total 0 (t.kind.opens + mostOpen ts) with h | h
    · refine ⟨t :: w, (List.prefix_cons_inj t).mpr hw, ?_⟩
      rw [mostOpen, max_eq_right h, openBraces_cons, hopen]
    · refine ⟨[], List.nil_prefix, ?_⟩
      rw [mostOpen, max_eq_left h]
      rfl

lemma isGreatest_mostOpen (ts : List Token) :
    IsGreatest {n | ∃ w, w <+: ts ∧ n = openBraces w} (mostOpen ts) := by
  refine ⟨exists_prefix_mostOpen ts, ?_⟩
  rintro n ⟨w, hw, rfl⟩
  exact openBraces_le_mostOpen hw

lemma mostOpen_append (u v : List Token) :
    mostOpen (u ++ v) = max (mostOpen u) (openBraces u + mostOpen v) := by
  induction u with
  | nil =>
    have hnonneg := mostOpen_nonneg v
    rw [List.nil_append, openBraces_nil, mostOpen]
    omega
  | cons t u ih =>
    rw [List.cons_append, mostOpen, mostOpen, openBraces_cons, ih]
    omega

end BraceMarkup.Token
