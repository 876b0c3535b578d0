import BraceMarkup.Element.Grammar
import BraceMarkup.Proofs.Token.Supply

namespace BraceMarkup.Grammar

open Feed

variable {σ : Type} [TokenSource σ] {ts us rest : List Token} {ending : Ending}

def startsElement : Token.Kind → Bool
  | .name | .string | .html | .script | .style => true
  | .equal | .leftBrace | .rightBrace | .semicolon => false

section Attributes

variable {n q v : Token}

lemma runs_tagAttribute_bare (hn : n.kind = .name) (h : Ahead (· ≠ .equal) rest ending) :
    Runs (tagAttribute : Building σ _) (n :: rest) ending
      (.ok (⟨n.lexeme, none, n.span⟩, rest)) := by
  refine (runs_expect hn _ rest).bind ?_
  refine (runs_isNext_false h).bind ?_
  exact runs_pure _

lemma runs_tagAttribute_valued (hn : n.kind = .name) (hq : q.kind = .equal)
    (hv : v.kind = .string) :
    Runs (tagAttribute : Building σ _) (n :: q :: v :: rest) ending
      (.ok (⟨n.lexeme, some v.lexeme, n.span⟩, rest)) := by
  refine (runs_expect hn _ _).bind ?_
  refine (runs_isNext_true hq _).bind ?_
  refine (runs_take q _).discard.bind ?_
  exact (runs_expect hv _ rest).bind (runs_pure _)

lemma runs_tagAttribute_unvalued (hn : n.kind = .name) (hq : q.kind = .equal)
    (hrest : ∀ t ∈ rest.head?, t.kind ≠ .string) (ending : Ending) :
    Runs (tagAttribute : Building σ _) (n :: q :: rest) ending
      (.error (refusal (.unexpectedToken "Expected string value".toList) rest ending)) := by
  refine (runs_expect hn _ _).bind ?_
  refine (runs_isNext_true hq _).bind ?_
  refine (runs_take q _).discard.bind ?_
  exact (runs_expect_refused _ hrest ending).bind_error

lemma runs_tagAttribute_fault (hn : n.kind = .name) (fault : Fault) :
    Runs (tagAttribute : Building σ _) [n] (.error fault) (.error fault) :=
  (runs_expect hn _ []).bind (runs_isNext_fault _ fault).bind_error

lemma runs_tagAttribute?_some {o : Except Fault (Attribute Span × List Token)}
    (hn : n.kind = .name) (h : Runs (tagAttribute : Building σ _) (n :: ts) ending o) :
    Runs (tagAttribute? : Building σ _) (n :: ts) ending (o.map fun p => (some p.1, p.2)) := by
  refine (runs_isNext_true hn ts).bind ?_
  cases o with
  | ok r => exact h.bind (runs_pure (some r.1))
  | error fault => exact h.bind_error

lemma runs_tagAttribute?_none (h : Ahead (· ≠ .name) ts ending) :
    Runs (tagAttribute? : Building σ _) ts ending (.ok (none, ts)) :=
  (runs_isNext_false h).bind (runs_pure none)

lemma runs_tagAttribute?_fault (fault : Fault) :
    Runs (tagAttribute? : Building σ _) [] (.error fault) (.error fault) :=
  (runs_isNext_fault _ fault).bind_error

end Attributes

section Bodies

variable {X : Building σ (Option (Element Span))} {e : Element Span} {es : List (Element Span)}
  {l r t : Token} {fault : Fault}

lemma runs_required_some (h : Runs X ts ending (.ok (some e, rest))) :
    Runs (required X) ts ending (.ok (e, rest)) :=
  h.bind (runs_pure e)

lemma runs_required_none (h : Runs X ts ending (.ok (none, rest))) :
    Runs (required X) ts ending (.error (refusal .expectedElement rest ending)) :=
  h.bind (runs_reject _ _ _)

lemma runs_child?_none (hr : r.kind = .rightBrace) :
    Runs (child? X) (r :: rest) ending (.ok (none, r :: rest)) :=
  (runs_isNext_true hr rest).bind (runs_pure none)

lemma runs_child?_some {o : Except Fault (Element Span × List Token)}
    (hts : Ahead (· ≠ .rightBrace) ts ending) (h : Runs (required X) ts ending o) :
    Runs (child? X) ts ending (o.map fun p => (some p.1, p.2)) := by
  refine (runs_isNext_false hts).bind ?_
  cases o with
  | ok p => exact h.bind (runs_pure (some p.1))
  | error fault => exact h.bind_error

lemma runs_child?_fault (fault : Fault) :
    Runs (child? X) [] (.error fault) (.error fault) :=
  (runs_isNext_fault _ fault).bind_error

lemma runs_body_semicolon (ht : t.kind = .semicolon) (rest : List Token) :
    Runs (body X) (t :: rest) ending (.ok ([], rest)) := by
  refine (runs_isNext_true ht rest).bind ?_
  exact (runs_take t rest).discard.bind (runs_pure [])

lemma runs_body_braces (hl : l.kind = .leftBrace)
    (h : RunsMany (child? X) ts ending (.ok (es, r :: rest))) :
    Runs (body X) (l :: ts) ending (.ok (es, rest)) := by
  have hl' : Ahead (· ≠ .semicolon) (l :: ts) ending := by simp [Ahead, hl]
  refine (runs_isNext_false hl').bind ?_
  refine (runs_isNext_true hl ts).bind ?_
  refine (runs_take l ts).discard.bind ?_
  refine h.many.bind ?_
  exact (runs_take r rest).discard.bind (runs_pure es)

lemma runs_body_braces_error (hl : l.kind = .leftBrace)
    (h : RunsMany (child? X) ts ending (.error fault)) :
    Runs (body X) (l :: ts) ending (.error fault) := by
  have hl' : Ahead (· ≠ .semicolon) (l :: ts) ending := by simp [Ahead, hl]
  refine (runs_isNext_false hl').bind ?_
  refine (runs_isNext_true hl ts).bind ?_
  exact (runs_take l ts).discard.bind h.many.bind_error

lemma runs_body_single (hs : Ahead (· ≠ .semicolon) ts ending)
    (hl : Ahead (· ≠ .leftBrace) ts ending) (h : Runs (required X) ts ending (.ok (e, rest)))
    (hrest : Ahead (· ≠ .semicolon) rest ending) :
    Runs (body X) ts ending (.ok ([e], rest)) := by
  refine (runs_isNext_false hs).bind ?_
  refine (runs_isNext_false hl).bind ?_
  refine h.bind ?_
  exact (runs_isNext_false hrest).bind (runs_pure [e])

lemma runs_body_single_semicolon (hs : Ahead (· ≠ .semicolon) ts ending)
    (hl : Ahead (· ≠ .leftBrace) ts ending) (h : Runs (required X) ts ending (.ok (e, t :: rest)))
    (ht : t.kind = .semicolon) : Runs (body X) ts ending (.ok ([e], rest)) := by
  refine (runs_isNext_false hs).bind ?_
  refine (runs_isNext_false hl).bind ?_
  refine h.bind ?_
  refine (runs_isNext_true ht rest).bind ?_
  exact (runs_take t rest).discard.bind (runs_pure [e])

lemma runs_body_single_fault (hs : Ahead (· ≠ .semicolon) ts (.error fault))
    (hl : Ahead (· ≠ .leftBrace) ts (.error fault))
    (h : Runs (required X) ts (.error fault) (.ok (e, []))) :
    Runs (body X) ts (.error fault) (.error fault) := by
  refine (runs_isNext_false hs).bind ?_
  refine (runs_isNext_false hl).bind ?_
  exact h.bind (runs_isNext_fault _ fault).bind_error

lemma runs_body_error (hs : Ahead (· ≠ .semicolon) ts ending)
    (hl : Ahead (· ≠ .leftBrace) ts ending) (h : Runs (required X) ts ending (.error fault)) :
    Runs (body X) ts ending (.error fault) := by
  refine (runs_isNext_false hs).bind ?_
  exact (runs_isNext_false hl).bind h.bind_error

lemma runs_body_fault (fault : Fault) : Runs (body X) [] (.error fault) (.error fault) :=
  (runs_isNext_fault _ fault).bind_error

end Bodies

section Elements

variable {X : Building σ (Option (Element Span))} {n : Token} {attributes : List (Attribute Span)}
  {limit : Nat}

lemma runs_tag {o : Except Fault (List (Element Span) × List Token)} (hn : n.kind = .name)
    (ha : RunsMany (tagAttribute? : Building σ _) ts ending (.ok (attributes, us)))
    (hb : Runs (body X) us ending o) :
    Runs (tag X) (n :: ts) ending
      (o.map fun p => (.tag n.lexeme attributes p.1 n.span, p.2)) := by
  refine (runs_expect hn _ ts).bind ?_
  refine ha.many.bind ?_
  cases o with
  | ok p => exact hb.bind (runs_pure _)
  | error fault => exact hb.bind_error

lemma runs_tag_error {fault : Fault} (hn : n.kind = .name)
    (ha : RunsMany (tagAttribute? : Building σ _) ts ending (.error fault)) :
    Runs (tag X) (n :: ts) ending (.error fault) :=
  (runs_expect hn _ ts).bind ha.many.bind_error

lemma runs_element_tag {o : Except Fault (Element Span × List Token)} (hn : n.kind = .name)
    (h : Runs (tag (element limit) : Building σ _) (n :: ts) ending o) :
    Runs (element (limit + 1) : Building σ _) (n :: ts) ending
      (o.map fun p => (some p.1, p.2)) := by
  refine (runs_peek_cons n ts).bind ?_
  dsimp only
  rw [hn]
  cases o with
  | ok p => exact h.bind (runs_pure (some p.1))
  | error fault => exact h.bind_error

lemma runs_element_none (h : Ahead (fun k => startsElement k = false) ts ending) :
    Runs (element (limit + 1) : Building σ _) ts ending (.ok (none, ts)) := by
  cases ts with
  | cons t ts =>
    refine (runs_peek_cons t ts).bind ?_
    have hk : startsElement t.kind = false := h
    dsimp only
    cases hkind : t.kind with
    | equal | leftBrace | rightBrace | semicolon => exact runs_pure none
    | name | string | html | script | style => simp [hkind, startsElement] at hk
  | nil =>
    cases ending with
    | ok span => exact (runs_peek_end span).bind (runs_pure none)
    | error fault => exact h.elim

lemma runs_element_fault (fault : Fault) :
    Runs (element (limit + 1) : Building σ _) [] (.error fault) (.error fault) :=
  (runs_peek_fault fault).bind_error

lemma runs_element_zero (ts : List Token) (ending : Ending) :
    Runs (element 0 : Building σ _) ts ending (.error (refusal .nestingTooDeep ts ending)) :=
  runs_reject _ ts ending

lemma runs_document {es : List (Element Span)} {span : Span}
    (h : RunsMany (element limit : Building σ _) ts (.ok span) (.ok (es, []))) :
    Runs (document limit : Building σ _) ts (.ok span) (.ok (es, [])) := by
  refine h.many.bind ?_
  exact (runs_peek_end span).bind (runs_pure es)

lemma runs_document_unfinished {es : List (Element Span)} {t : Token}
    (h : RunsMany (element limit : Building σ _) ts ending (.ok (es, t :: rest))) :
    Runs (document limit : Building σ _) ts ending (.error ⟨.expectedTag, t.span⟩) := by
  refine h.many.bind ?_
  exact (runs_peek_cons t rest).bind (runs_reject _ _ _)

lemma runs_document_error {fault : Fault}
    (h : RunsMany (element limit : Building σ _) ts ending (.error fault)) :
    Runs (document limit : Building σ _) ts ending (.error fault) :=
  h.many.bind_error

end Elements

end BraceMarkup.Grammar
