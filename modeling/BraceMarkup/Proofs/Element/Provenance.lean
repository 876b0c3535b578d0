import BraceMarkup.Proofs.Element.Language
import BraceMarkup.Proofs.Token.Order

/-! Where a tree comes from. The nodes of a tree mention the tokens that it was built from, each of
them once and in order, and every node stands where its token stands. -/

namespace BraceMarkup

structure Mention where
  kind : Token.Kind
  lexeme : Text
  span : Option Span

structure Mention.Of (m : Mention) (t : Token) : Prop where
  kind_eq : t.kind = m.kind
  lexeme_eq : t.lexeme = m.lexeme
  span_eq : ∀ p ∈ m.span, t.span = p

def Attribute.mentions (a : Attribute Span) : List Mention :=
  ⟨.name, a.name, some a.location⟩ :: (a.value.map fun value => ⟨.string, value, none⟩).toList

namespace Element

def blockKind (name : Text) : Token.Kind :=
  if name = "style".toList then .style else .script

mutual

def mentions (s : Text) : Element Span → List Mention
  | .tag name attributes children location =>
    if location.text s = name then
      ⟨.name, name, some location⟩ :: attributes.flatMap Attribute.mentions ++ mentionsAll s children
    else [⟨blockKind name, location.text s, some location⟩]
  | .text _ location => [⟨.string, location.text s, some location⟩]
  | .raw _ location => [⟨.html, location.text s, some location⟩]
  | .foreign _ => []

def mentionsAll (s : Text) : List (Element Span) → List Mention
  | [] => []
  | e :: es => mentions s e ++ mentionsAll s es

end

def locations (s : Text) (es : List (Element Span)) : List Span :=
  (mentionsAll s es).filterMap Mention.span

mutual

/-- Every node holds what stands at its location in `s`. -/
def Faithful (s : Text) : Element Span → Prop
  | .tag name attributes children location =>
    (name = location.text s ∧ (∀ a ∈ attributes, a.name = a.location.text s) ∧
      FaithfulAll s children) ∨
    ∃ kind : Token.Kind, kind.isEmbedded = true ∧
      tag name attributes children location = ofBlock ⟨kind, location.text s, location⟩
  | .text value location => value = (location.text s).tail.dropLast
  | .raw value location => value = location.text s
  | .foreign _ => False

def FaithfulAll (s : Text) : List (Element Span) → Prop
  | [] => True
  | e :: es => Faithful s e ∧ FaithfulAll s es

end

end Element

namespace Token

def isPunctuation (t : Token) : Bool :=
  t.kind ∈ [.equal, .leftBrace, .rightBrace, .semicolon]

def contents (ts : List Token) : List Token :=
  ts.filter fun t => !t.isPunctuation

@[simp] lemma contents_nil : contents [] = [] := rfl

@[simp] lemma contents_append (ts us : List Token) :
    contents (ts ++ us) = contents ts ++ contents us :=
  List.filter_append ts us

@[simp] lemma contents_cons (t : Token) (ts : List Token) :
    contents (t :: ts) = if t.isPunctuation then contents ts else t :: contents ts := by
  cases h : t.isPunctuation <;> simp [contents, h]

structure StandsAt (s : Text) (t : Token) : Prop where
  lexeme_eq : t.lexeme = t.span.text s
  lexeme : ∃ rest, Lexeme t.kind t.lexeme rest

lemma Lexeme.ne_blockName {kind : Kind} {x rest : Text} (h : Lexeme kind x rest)
    (hk : kind.isEmbedded = true) : x ≠ Element.blockName kind := by
  cases h with
  | script | style => simp [Element.blockName]
  | name | string | equal | leftBrace | rightBrace | semicolon | html =>
    simp [Kind.isEmbedded] at hk

end Token

namespace Grammar

open Element Token

variable {s : Text}

lemma blockKind_blockName {kind : Kind} (h : kind.isEmbedded = true) :
    blockKind (blockName kind) = kind := by
  cases kind with
  | script | style => rfl
  | name | string | equal | leftBrace | rightBrace | semicolon | html =>
    simp [Kind.isEmbedded] at h

lemma traced_block {t : Token} (ht : StandsAt s t) (hk : t.kind.isEmbedded = true) :
    List.Forall₂ Mention.Of ((ofBlock t).mentions s) [t] ∧ (ofBlock t).Faithful s := by
  obtain ⟨rest, hx⟩ := ht.lexeme
  have hne : t.span.text s ≠ blockName t.kind := by
    rw [← ht.lexeme_eq]
    exact hx.ne_blockName hk
  constructor
  · rw [ofBlock, mentions, if_neg hne, blockKind_blockName hk]
    exact .cons ⟨rfl, ht.lexeme_eq, by simp⟩ .nil
  · refine .inr ⟨t.kind, hk, ?_⟩
    rw [← ht.lexeme_eq]
    rfl

lemma contents_singleton {t : Token} (h : startsElement t.kind = true) : contents [t] = [t] := by
  obtain ⟨hequal, hleft, hright, hsemi⟩ := ne_of_startsElement h
  simp [isPunctuation, hequal, hleft, hright, hsemi]

lemma LeafTree.traced {t : Token} {e : Element Span} (h : LeafTree t e) (ht : StandsAt s t) :
    List.Forall₂ Mention.Of (e.mentions s) (contents [t]) ∧ e.Faithful s := by
  rw [contents_singleton h.starts]
  cases h with
  | string hk =>
    refine ⟨.cons ⟨hk, ht.lexeme_eq, by simp⟩ .nil, ?_⟩
    rw [ht.lexeme_eq]
    rfl
  | html hk => exact ⟨.cons ⟨hk, ht.lexeme_eq, by simp⟩ .nil, ht.lexeme_eq⟩
  | script hk => exact traced_block ht (by rw [hk]; rfl)
  | style hk => exact traced_block ht (by rw [hk]; rfl)

lemma AttributeTree.traced {ts : List Token} {a : Attribute Span} (h : AttributeTree ts a)
    (hts : ∀ t ∈ ts, StandsAt s t) :
    List.Forall₂ Mention.Of a.mentions (contents ts) ∧ a.name = a.location.text s := by
  cases h with
  | @bare n hn =>
    have hc : contents [n] = [n] := by simp [isPunctuation, hn]
    rw [hc]
    exact ⟨.cons ⟨hn, rfl, by simp⟩ .nil, (hts n (by simp)).lexeme_eq⟩
  | @valued n q v hn hq hv =>
    have hc : contents [n, q, v] = [n, v] := by simp [isPunctuation, hn, hq, hv]
    rw [hc]
    refine ⟨.cons ⟨hn, rfl, by simp⟩ (.cons ⟨hv, rfl, by simp⟩ .nil), ?_⟩
    exact (hts n (by simp)).lexeme_eq

lemma AttributeTrees.traced {ts : List Token} {as : List (Attribute Span)}
    (h : AttributeTrees ts as) (hts : ∀ t ∈ ts, StandsAt s t) :
    List.Forall₂ Mention.Of (as.flatMap Attribute.mentions) (contents ts) ∧
      ∀ a ∈ as, a.name = a.location.text s := by
  induction h with
  | nil => exact ⟨.nil, by simp⟩
  | cons ha _ ih =>
    obtain ⟨hleft, hright⟩ := List.forall_mem_append.mp hts
    obtain ⟨ha, hname⟩ := ha.traced hleft
    obtain ⟨has, hnames⟩ := ih hright
    rw [List.flatMap_cons, contents_append]
    exact ⟨List.rel_append ha has, List.forall_mem_cons.mpr ⟨hname, hnames⟩⟩

mutual

theorem ElementTree.traced {ts : List Token} {e : Element Span} : ElementTree ts e →
    (∀ t ∈ ts, StandsAt s t) →
      List.Forall₂ Mention.Of (e.mentions s) (contents ts) ∧ e.Faithful s
  | .leaf h, hts => h.traced (hts _ (by simp))
  | @ElementTree.tag n ts us as es hn has hbs, hts => by
    obtain ⟨hn', hrest⟩ := List.forall_mem_cons.mp hts
    obtain ⟨hleft, hright⟩ := List.forall_mem_append.mp hrest
    obtain ⟨has, hnames⟩ := has.traced hleft
    obtain ⟨hes, hfaithful⟩ := hbs.traced hright
    have hc : contents (n :: (ts ++ us)) = n :: (contents ts ++ contents us) := by
      simp [isPunctuation, hn]
    rw [List.cons_append, hc, mentions, if_pos hn'.lexeme_eq.symm]
    refine ⟨.cons ⟨hn, rfl, by simp⟩ (List.rel_append has hes), ?_⟩
    exact .inl ⟨hn'.lexeme_eq, hnames, hfaithful⟩

theorem BodyTree.traced {ts : List Token} {es : List (Element Span)} : BodyTree ts es →
    (∀ t ∈ ts, StandsAt s t) →
      List.Forall₂ Mention.Of (mentionsAll s es) (contents ts) ∧ FaithfulAll s es
  | @BodyTree.semicolon t h, hts => by
    have hc : contents [t] = [] := by simp [isPunctuation, h]
    rw [hc]
    exact ⟨.nil, trivial⟩
  | @BodyTree.braces l r ts es hl hes hr, hts => by
    have hc : contents (l :: ts ++ [r]) = contents ts := by simp [isPunctuation, hl, hr]
    rw [hc]
    exact hes.traced fun t ht => hts t (by simp [ht])
  | @BodyTree.leaf t e h, hts => by
    obtain ⟨he, hfaithful⟩ := h.traced (hts t (by simp))
    rw [mentionsAll, mentionsAll, List.append_nil]
    exact ⟨he, hfaithful, trivial⟩
  | @BodyTree.leafSemicolon t u e h hu, hts => by
    obtain ⟨he, hfaithful⟩ := h.traced (hts t (by simp))
    have hc : contents [t, u] = contents [t] := by simp [isPunctuation, hu]
    rw [hc, mentionsAll, mentionsAll, List.append_nil]
    exact ⟨he, hfaithful, trivial⟩

theorem ElementTrees.traced {ts : List Token} {es : List (Element Span)} : ElementTrees ts es →
    (∀ t ∈ ts, StandsAt s t) →
      List.Forall₂ Mention.Of (mentionsAll s es) (contents ts) ∧ FaithfulAll s es
  | .nil, _ => ⟨.nil, trivial⟩
  | .cons he hes, hts => by
    obtain ⟨hleft, hright⟩ := List.forall_mem_append.mp hts
    obtain ⟨he, hfaithful⟩ := he.traced hleft
    obtain ⟨hes, hfaithful'⟩ := hes.traced hright
    rw [mentionsAll, contents_append]
    exact ⟨List.rel_append he hes, hfaithful, hfaithful'⟩

end

end Grammar

open Element Token Grammar

lemma sublist_spans {ms : List Mention} {ts : List Token} (h : List.Forall₂ Mention.Of ms ts) :
    (ms.filterMap Mention.span).Sublist (ts.map Token.span) := by
  induction h with
  | nil => exact .slnil
  | @cons m t ms ts hm _ ih =>
    cases hp : m.span with
    | none =>
      rw [List.filterMap_cons_none hp]
      exact ih.cons t.span
    | some p =>
      rw [List.filterMap_cons_some hp, List.map_cons, hm.span_eq p hp]
      exact ih.cons_cons p

lemma standsAt_of_mem_located {ps : List Piece} (hps : Fitting ps []) :
    ∀ t ∈ located 0 {} ps, StandsAt (joined ps) t := by
  intro t ht
  obtain ⟨qs, rs, -, hx, -⟩ := exists_edges_of_mem_located hps ht
  have htext := lexeme_eq_text hps ht
  rw [List.append_nil] at htext
  exact ⟨htext, _, hx⟩

/-- Parsing loses, doubles and moves no token. Without punctuation the tokens of the text are those
that the tree mentions, in this order. Every node and attribute holds what stands at its location,
and the locations follow each other without an overlap. -/
theorem parseWithin_provenance (limit : Nat) (s : Text) (es : List (Element Span))
    (h : parseWithin limit s = .ok es) :
    (Cursor.ofText s).drain.fault = none ∧
    List.Forall₂ Mention.Of (mentionsAll s es) (contents (Cursor.ofText s).drain.tokens) ∧
    FaithfulAll s es ∧
    (locations s es).Pairwise fun p q => p.idx < q.idx ∧ p.stop ≤ q.idx := by
  obtain ⟨hf, htrees, -⟩ := elementsWithin_of_parseWithin h
  obtain ⟨ps, rfl, hps, htokens⟩ := Cursor.exists_pieces_of_fault_eq_none hf
  rw [htokens] at htrees ⊢
  obtain ⟨hmentions, hfaithful⟩ := htrees.traced (standsAt_of_mem_located hps)
  refine ⟨hf, hmentions, hfaithful, ?_⟩
  have hspans : (locations (joined ps) es).Sublist ((located 0 {} ps).map Token.span) :=
    (sublist_spans hmentions).trans (List.filter_sublist.map Token.span)
  apply List.Pairwise.sublist hspans
  rw [List.pairwise_map]
  refine (pairwise_located hps).imp_of_mem fun ht _ hle => ?_
  have hlt := (bounds_of_mem_located hps ht).2.1
  exact ⟨by omega, hle⟩

theorem parseWithin_provenance_block :
    ∃ es, parse "a b=\"c\" \x7b js\x7bd\n e\x7d 'f' \x7d".toList = .ok es ∧
    List.Forall₂ Mention.Of (mentionsAll "a b=\"c\" \x7b js\x7bd\n e\x7d 'f' \x7d".toList es)
      (contents (Cursor.ofText "a b=\"c\" \x7b js\x7bd\n e\x7d 'f' \x7d".toList).drain.tokens) ∧
    FaithfulAll "a b=\"c\" \x7b js\x7bd\n e\x7d 'f' \x7d".toList es ∧
    (locations "a b=\"c\" \x7b js\x7bd\n e\x7d 'f' \x7d".toList es).map
      (fun p => (p.idx, p.stop)) = [(0, 1), (2, 3), (10, 18), (19, 22)] := by
  have h : parse "a b=\"c\" \x7b js\x7bd\n e\x7d 'f' \x7d".toList = .ok
      [.tag "a".toList [⟨"b".toList, some "\"c\"".toList, ⟨2, 1, ⟨1, 3⟩, ⟨1, 3⟩⟩⟩]
        [.tag "script".toList []
          [.raw "d".toList ⟨10, 8, ⟨1, 11⟩, ⟨2, 3⟩⟩, .raw "e".toList ⟨10, 8, ⟨1, 11⟩, ⟨2, 3⟩⟩]
          ⟨10, 8, ⟨1, 11⟩, ⟨2, 3⟩⟩,
         .text "f".toList ⟨19, 3, ⟨2, 5⟩, ⟨2, 7⟩⟩] ⟨0, 1, ⟨1, 1⟩, ⟨1, 1⟩⟩] := by
    decide +kernel
  obtain ⟨-, hmentions, hfaithful, -⟩ := parseWithin_provenance nestingLimit _ _ h
  exact ⟨_, h, hmentions, hfaithful, by decide +kernel⟩

end BraceMarkup
