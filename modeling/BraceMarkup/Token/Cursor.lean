import BraceMarkup.Token.Reading

/-!
Reading tokens one after another. The cursor stands on a span of the source: the characters `held`
and, after them, the first character of `rest`. Held characters remain only when reading failed,
and the next token then covers them too.
-/

namespace BraceMarkup

structure Cursor where
  idx : Nat := 0
  place : Place := {}
  held : Text := []
  rest : Text
deriving DecidableEq, Repr

namespace Cursor

def ofText (source : Text) : Cursor :=
  { rest := source }

def span (c : Cursor) : Span :=
  Span.reaching c.idx c.place c.held

def spanOver (c : Cursor) (s : Text) : Span :=
  Span.reaching c.idx c.place (c.held ++ s).dropLast

def past (c : Cursor) (s rest : Text) : Cursor where
  idx := c.idx + (c.held ++ s).length
  place := c.place.afterText (c.held ++ s)
  rest := rest

def holdAll (c : Cursor) : Cursor :=
  { c with
    held := (c.held ++ c.rest).dropLast
    rest := (c.held ++ c.rest).getLast?.toList }

def scan (c : Cursor) : Except Fault (Option Token) × Cursor :=
  match _h : Token.Reading.first c.rest with
  | .finished => (.ok none, c)
  | .skipped text rest => scan (c.past text rest)
  | .token kind text rest => (.ok (some ⟨kind, c.held ++ text, c.spanOver text⟩), c.past text rest)
  | .endless cause => (.error ⟨cause, c.spanOver c.rest⟩, c.holdAll)
  | .stray character => (.error ⟨.invalidCharacter character, c.span⟩, c)
termination_by c.rest.length
decreasing_by
  have hs := Token.Reading.splits_first c.rest
  rw [_h] at hs
  have := List.length_pos_iff.2 hs.1
  simp only [past, hs.2, List.length_append]
  omega

theorem length_rest_of_scan {c d : Cursor} {t : Token} (h : c.scan = (.ok (some t), d)) :
    d.rest.length < c.rest.length := by
  fun_induction scan c with
  | case1 => simp at h
  | case2 c text rest hr ih =>
    have hs := Token.Reading.splits_first c.rest
    rw [hr] at hs
    have := ih h
    simp only [past] at this
    rw [hs.2, List.length_append]
    omega
  | case3 c kind text rest hr =>
    have hs := Token.Reading.splits_first c.rest
    rw [hr] at hs
    have := List.length_pos_iff.2 hs.1
    obtain ⟨_, rfl⟩ := Prod.mk.inj h
    rw [hs.2, List.length_append]
    simp only [past]
    omega
  | case4 => simp at h
  | case5 => simp at h

structure Drained where
  tokens : List Token
  fault : Option Fault
  cursor : Cursor
deriving DecidableEq, Repr

def drain (c : Cursor) : Drained :=
  match _h : c.scan with
  | (.ok none, d) => ⟨[], none, d⟩
  | (.error fault, d) => ⟨[], some fault, d⟩
  | (.ok (some token), d) =>
    let later := drain d
    { later with tokens := token :: later.tokens }
termination_by c.rest.length
decreasing_by exact length_rest_of_scan _h

end Cursor

end BraceMarkup
