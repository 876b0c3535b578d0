import BraceMarkup.Proofs.Token.Exhaustion

namespace BraceMarkup

namespace Token

structure IsBlock (t : Token) (body : Text) : Prop where
  balanced : Balanced openBrace closeBrace body
  lexeme_eq : ∃ name, embeddedKind? name = some t.kind ∧
    t.lexeme = name ++ openBrace :: body ++ [closeBrace]

variable {kind : Kind} {x rest body : Text} {t : Token}

lemma isEmbedded_of_embeddedKind? {name : Text} (h : embeddedKind? name = some kind) :
    kind.isEmbedded = true := by
  obtain ⟨-, rfl⟩ | ⟨-, rfl⟩ := Reading.embeddedKind?_eq_some h
  · rfl
  · rfl

lemma Lexeme.exists_isBlock (h : Lexeme kind x rest) (hk : kind.isEmbedded = true) (span : Span) :
    ∃ body, IsBlock ⟨kind, x, span⟩ body := by
  cases h with
  | script _ hb => exact ⟨_, hb, ['j', 's'], rfl, rfl⟩
  | style _ hb => exact ⟨_, hb, ['c', 's', 's'], rfl, rfl⟩
  | name | string | equal | leftBrace | rightBrace | semicolon | html => cases hk

lemma IsBlock.length_lexeme (h : IsBlock t body) : 4 ≤ t.lexeme.length := by
  obtain ⟨-, name, hname, hx⟩ := h
  rw [hx]
  obtain ⟨rfl, -⟩ | ⟨rfl, -⟩ := Reading.embeddedKind?_eq_some hname
  · simp
  · simp

lemma IsBlock.interior_eq (h : IsBlock t body) : t.interior = body := by
  obtain ⟨-, name, hname, hx⟩ := h
  rw [interior, hx]
  obtain ⟨rfl, -⟩ | ⟨rfl, -⟩ := Reading.embeddedKind?_eq_some hname
  · simp [openBrace]
  · simp [openBrace]

lemma IsBlock.body_eq (h : IsBlock t body) : t.body = .ok body := by
  have hinterior := h.interior_eq
  obtain ⟨-, name, hname, hx⟩ := h
  have hmem : openBrace ∈ t.lexeme := by simp [hx]
  rw [Token.body, isEmbedded_of_embeddedKind? hname, if_pos hmem, hinterior]
  rfl

end Token

namespace Cursor

open Token

variable {c d : Cursor} {t : Token}

def HoldsMost (c : Cursor) : Prop :=
  c.held ≠ [] → c.rest.length ≤ 1

lemma HoldsMost.scan (h : c.HoldsMost) : c.scan.2.HoldsMost := by
  fun_induction Cursor.scan c with
  | case1 c hr => exact h
  | case2 c x rest hr ih => exact ih fun hne => absurd rfl hne
  | case3 c kind x rest hr => exact fun hne => absurd rfl hne
  | case4 c cause hr =>
    intro _
    rw [holdAll]
    cases (c.held ++ c.rest).getLast? <;> simp
  | case5 c char hr => exact h

lemma holdsMost_afterCalls (s : Text) (n : Nat) : ((ofText s).afterCalls n).HoldsMost := by
  induction n with
  | zero => exact fun hne => absurd rfl hne
  | succ n ih => exact ih.scan

lemma HoldsMost.exists_isBlock (h : c.HoldsMost) (hc : c.scan = (.ok (some t), d))
    (hk : t.kind.isEmbedded = true) : ∃ body, t.IsBlock body := by
  fun_induction Cursor.scan c with
  | case1 => simp at hc
  | case2 c x rest hr ih => exact ih (fun hne => absurd rfl hne) hc
  | case3 c kind x rest hr =>
    obtain ⟨ht, -⟩ := Prod.mk.inj hc
    obtain rfl := Option.some.inj (Except.ok.inj ht)
    obtain ⟨hrest, hx⟩ := Reading.first_eq_token_iff.mp hr
    obtain ⟨body, hblock⟩ := hx.exists_isBlock hk (c.spanOver x)
    have hheld : c.held = [] := by
      by_contra hne
      have hshort := h hne
      have hlong : 4 ≤ x.length := hblock.length_lexeme
      rw [hrest, List.length_append] at hshort
      omega
    rw [hheld]
    exact ⟨body, hblock⟩
  | case4 => simp at hc
  | case5 => simp at hc

lemma exists_isBlock_of_answer {s : Text} {n : Nat} (h : (ofText s).answer n = .ok (some t))
    (hk : t.kind.isEmbedded = true) : ∃ body, t.IsBlock body :=
  (holdsMost_afterCalls s n).exists_isBlock (Prod.ext h rfl) hk

end Cursor

end BraceMarkup
