import BraceMarkup.Proofs.Element.Language

/-! The grammar in which a body may be any single element, a tag too.

    document  = element*
    element   = tag | string | raw markup | embedded block
    tag       = name attribute* body
    attribute = name ("=" string)?
    body      = ";" | "{" element* "}" | element ";"?

A name behind the name of a tag is an attribute here or starts the body, so that tokens may have
several trees. When a text is built such a name is always an attribute. No tokens are lost by that
but those with a semicolon right behind a semicolon or a closing brace: only a tag that stands alone
in the body of another could end there. -/

namespace BraceMarkup

namespace Grammar

mutual

inductive BroadElement : List Token → Element Span → Prop
  | leaf {t : Token} {e : Element Span} : LeafTree t e → BroadElement [t] e
  | tag {n : Token} {ts us : List Token} {as : List (Attribute Span)} {es : List (Element Span)} :
      n.kind = .name → AttributeTrees ts as → BroadBody us es →
      BroadElement (n :: ts ++ us) (.tag n.lexeme as es n.span)

inductive BroadBody : List Token → List (Element Span) → Prop
  | semicolon {s : Token} : s.kind = .semicolon → BroadBody [s] []
  | braces {l r : Token} {ts : List Token} {es : List (Element Span)} : l.kind = .leftBrace →
      BroadElements ts es → r.kind = .rightBrace → BroadBody (l :: ts ++ [r]) es
  | single {ts : List Token} {e : Element Span} : BroadElement ts e → BroadBody ts [e]
  | terminated {ts : List Token} {s : Token} {e : Element Span} : BroadElement ts e →
      s.kind = .semicolon → BroadBody (ts ++ [s]) [e]

inductive BroadElements : List Token → List (Element Span) → Prop
  | nil : BroadElements [] []
  | cons {ts us : List Token} {e : Element Span} {es : List (Element Span)} :
      BroadElement ts e → BroadElements us es → BroadElements (ts ++ us) (e :: es)

end

mutual

theorem ElementTree.broad {ts : List Token} {e : Element Span} :
    ElementTree ts e → BroadElement ts e
  | .leaf h => .leaf h
  | .tag hn has hbs => .tag hn has hbs.broad

theorem BodyTree.broad {ts : List Token} {es : List (Element Span)} :
    BodyTree ts es → BroadBody ts es
  | .semicolon hs => .semicolon hs
  | .braces hl hes hr => .braces hl hes.broad hr
  | .leaf h => .single (.leaf h)
  | .leafSemicolon h hs => .terminated (.leaf h) hs

theorem ElementTrees.broad {ts : List Token} {es : List (Element Span)} :
    ElementTrees ts es → BroadElements ts es
  | .nil => .nil
  | .cons he hes => .cons he.broad hes.broad

end

/-- A semicolon is not right behind a semicolon or a closing brace. -/
def MayFollow (t u : Token) : Prop :=
  u.kind = .semicolon → t.kind ≠ .semicolon ∧ t.kind ≠ .rightBrace

section Following

variable {t s : Token} {ts us : List Token} {e : Element Span} {es : List (Element Span)}

lemma isChain_append_of_plain (hts : ∀ t ∈ ts, t.kind ≠ .semicolon ∧ t.kind ≠ .rightBrace)
    (hus : us.IsChain MayFollow) : (ts ++ us).IsChain MayFollow := by
  induction ts with
  | nil => exact hus
  | cons t ts ih =>
    obtain ⟨ht, hts⟩ := List.forall_mem_cons.mp hts
    rw [List.cons_append, List.isChain_cons]
    exact ⟨fun _ _ _ => ht, ih hts⟩

lemma isChain_append_of_head (hts : ts.IsChain MayFollow) (hus : us.IsChain MayFollow)
    (hhead : ∀ u ∈ us.head?, u.kind ≠ .semicolon) : (ts ++ us).IsChain MayFollow := by
  rw [List.isChain_append]
  exact ⟨hts, hus, fun _ _ u hu hkind => (hhead u hu hkind).elim⟩

lemma LeafTree.plain (h : LeafTree t e) : t.kind ≠ .semicolon ∧ t.kind ≠ .rightBrace := by
  obtain ⟨-, -, hbrace, hsemicolon⟩ := ne_of_startsElement h.starts
  exact ⟨hsemicolon, hbrace⟩

lemma AttributeTrees.plain {as : List (Attribute Span)} (h : AttributeTrees ts as) :
    ∀ t ∈ ts, t.kind ≠ .semicolon ∧ t.kind ≠ .rightBrace := by
  induction h with
  | nil => simp
  | cons ha _ ih =>
    refine List.forall_mem_append.mpr ⟨?_, ih⟩
    cases ha with
    | bare hn => simp [hn]
    | valued hn hq hv => simp [hn, hq, hv]

lemma ElementTrees.head_ne_semicolon (h : ElementTrees ts es) :
    ∀ t ∈ ts.head?, t.kind ≠ .semicolon := by
  cases h with
  | nil => simp
  | cons he _ =>
    obtain ⟨t, us, rfl, ht⟩ := he.starts
    simpa using (ne_of_startsElement ht).2.2.2

mutual

theorem ElementTree.isChain {ts : List Token} {e : Element Span} :
    ElementTree ts e → ts.IsChain MayFollow
  | .leaf _ => .singleton _
  | .tag hn has hbs => by
    refine isChain_append_of_plain (List.forall_mem_cons.mpr ⟨?_, has.plain⟩) hbs.isChain
    simp [hn]

theorem BodyTree.isChain {ts : List Token} {es : List (Element Span)} :
    BodyTree ts es → ts.IsChain MayFollow
  | .semicolon _ => .singleton _
  | .braces (r := r) hl hes hr => by
    rw [List.cons_append, List.isChain_cons]
    refine ⟨fun _ _ _ => by simp [hl], ?_⟩
    exact isChain_append_of_head hes.isChain (.singleton r) (by simp [hr])
  | .leaf _ => .singleton _
  | .leafSemicolon (s := s) h _ => by
    rw [List.isChain_cons]
    exact ⟨fun _ _ _ => h.plain, .singleton s⟩

theorem ElementTrees.isChain {ts : List Token} {es : List (Element Span)} :
    ElementTrees ts es → ts.IsChain MayFollow
  | .nil => .nil
  | .cons he hes => isChain_append_of_head he.isChain hes.isChain hes.head_ne_semicolon

end

end Following

section Strict

variable {s : Token} {ts us : List Token} {es : List (Element Span)}

lemma AttributeTrees.append {as bs : List (Attribute Span)} (h : AttributeTrees ts as)
    (h' : AttributeTrees us bs) : AttributeTrees (ts ++ us) (as ++ bs) := by
  induction h with
  | nil => exact h'
  | cons ha _ ih =>
    rw [List.append_assoc, List.cons_append]
    exact .cons ha ih

lemma BodyTree.terminated (h : BodyTree ts es) (hs : s.kind = .semicolon)
    (hchain : (ts ++ [s]).IsChain MayFollow) : BodyTree (ts ++ [s]) es := by
  have hlast : ∀ t ∈ ts.getLast?, t.kind ≠ .semicolon ∧ t.kind ≠ .rightBrace := by
    intro t ht
    exact (List.isChain_append.mp hchain).2.2 t ht s rfl hs
  cases h with
  | semicolon hsemi => exact ((hlast _ rfl).1 hsemi).elim
  | braces hl hes hr => exact ((hlast _ List.getLast?_concat).2 hr).elim
  | leaf h => exact .leafSemicolon h hs
  | leafSemicolon h hsemi => exact ((hlast _ rfl).1 hsemi).elim

def SplitsBody (ts : List Token) : Prop :=
  ∃ us vs as es, ts = us ++ vs ∧ AttributeTrees us as ∧ BodyTree vs es

lemma BodyTree.splits (h : BodyTree ts es) : SplitsBody ts :=
  ⟨[], ts, [], es, rfl, .nil, h⟩

lemma splitsBody_tag {n : Token} {as : List (Attribute Span)} (hn : n.kind = .name)
    (has : AttributeTrees ts as) (h : BodyTree us es) : SplitsBody (n :: ts ++ us) :=
  ⟨n :: ts, us, _, es, rfl, .cons (.bare hn) has, h⟩

mutual

theorem BroadElement.strict {ts : List Token} {e : Element Span} :
    BroadElement ts e → ts.IsChain MayFollow → ∃ f, ElementTree ts f
  | .leaf h, _ => ⟨_, .leaf h⟩
  | .tag hn has hbs, hchain => by
    obtain ⟨us, vs, bs, fs, rfl, hus, hvs⟩ := hbs.splits hchain.right_of_append
    have htree := ElementTree.tag hn (has.append hus) hvs
    rw [List.cons_append, List.append_assoc] at htree
    exact ⟨_, htree⟩

theorem BroadBody.splits {ts : List Token} {es : List (Element Span)} :
    BroadBody ts es → ts.IsChain MayFollow → SplitsBody ts
  | .semicolon hs, _ => (BodyTree.semicolon hs).splits
  | .braces hl hes hr, hchain => by
    rw [List.cons_append] at hchain
    obtain ⟨fs, hfs⟩ := hes.strict hchain.tail.left_of_append
    exact (BodyTree.braces hl hfs hr).splits
  | .single h, hchain => by
    obtain ⟨f, hf⟩ := h.strict hchain
    cases hf with
    | leaf h => exact (BodyTree.leaf h).splits
    | tag hn has hbs => exact splitsBody_tag hn has hbs
  | .terminated h hs, hchain => by
    obtain ⟨f, hf⟩ := h.strict hchain.left_of_append
    cases hf with
    | leaf h => exact (BodyTree.leafSemicolon h hs).splits
    | tag hn has hbs =>
      rw [List.append_assoc] at hchain ⊢
      exact splitsBody_tag hn has (hbs.terminated hs hchain.right_of_append)

theorem BroadElements.strict {ts : List Token} {es : List (Element Span)} :
    BroadElements ts es → ts.IsChain MayFollow → ∃ fs, ElementTrees ts fs
  | .nil, _ => ⟨[], .nil⟩
  | .cons he hes, hchain => by
    obtain ⟨f, hf⟩ := he.strict hchain.left_of_append
    obtain ⟨fs, hfs⟩ := hes.strict hchain.right_of_append
    exact ⟨f :: fs, .cons hf hfs⟩

end

lemma exists_elementTrees_iff :
    (∃ es, ElementTrees ts es) ↔ (∃ es, BroadElements ts es) ∧ ts.IsChain MayFollow := by
  constructor
  · rintro ⟨es, h⟩
    exact ⟨⟨es, h.broad⟩, h.isChain⟩
  · rintro ⟨⟨es, h⟩, hchain⟩
    exact h.strict hchain

end Strict

end Grammar

open Grammar

/-- A text that is not too deep parses exactly when it is read without a fault, its tokens derive a
tree when a body may be any single element, and no semicolon is right behind a semicolon or a closing
brace. Such a text is not too deep for any limit from some depth on. The tree that is built is one of
those derived. -/
theorem exists_parseWithin_iff_broad (limit : Nat) (s : Text) :
    ((∃ es, parseWithin limit s = .ok es) ↔
      WithinLimit limit s ∧ (Cursor.ofText s).drain.fault = none ∧
      (∃ es, BroadElements (Cursor.ofText s).drain.tokens es) ∧
      (Cursor.ofText s).drain.tokens.IsChain MayFollow) ∧
    ((Cursor.ofText s).drain.fault = none →
      (∃ es, BroadElements (Cursor.ofText s).drain.tokens es) →
      (Cursor.ofText s).drain.tokens.IsChain MayFollow →
      ∃ depth, ∀ limit' > depth, WithinLimit limit' s) ∧
    ∀ es, parseWithin limit s = .ok es → BroadElements (Cursor.ofText s).drain.tokens es := by
  refine ⟨⟨?_, ?_⟩, ?_, ?_⟩
  · rintro ⟨es, h⟩
    obtain ⟨hfault, htree, -⟩ := elementsWithin_of_parseWithin h
    exact ⟨withinLimit_of_ok h, hfault, exists_elementTrees_iff.mp ⟨es, htree⟩⟩
  · rintro ⟨hlimit, hfault, hbroad⟩
    obtain ⟨es, htree⟩ := exists_elementTrees_iff.mpr hbroad
    exact ⟨es, parseWithin_of_withinLimit hlimit hfault htree⟩
  · intro hfault hbroad hchain
    obtain ⟨es, htree⟩ := exists_elementTrees_iff.mpr ⟨hbroad, hchain⟩
    refine ⟨Element.maxDepth es, fun limit' hdepth => ?_⟩
    exact withinLimit_of_ok (parseWithin_of_elementTrees hfault htree hdepth)
  · intro es h
    obtain ⟨-, htree, -⟩ := elementsWithin_of_parseWithin h
    exact htree.broad

def stoppedTwice : Text := "a b;;".toList

theorem broad_not_parsed :
    WithinLimit nestingLimit stoppedTwice ∧ (Cursor.ofText stoppedTwice).drain.fault = none ∧
    (∃ es, BroadElements (Cursor.ofText stoppedTwice).drain.tokens es) ∧
    ¬ ∃ es, parse stoppedTwice = .ok es := by
  have hparse : parse stoppedTwice = .error ⟨.expectedTag, ⟨4, 1, ⟨1, 5⟩, ⟨1, 5⟩⟩⟩ := by
    decide +kernel
  have hkinds : (Cursor.ofText stoppedTwice).drain.tokens.map Token.kind =
      [.name, .name, .semicolon, .semicolon] := by
    decide +kernel
  refine ⟨?_, by decide +kernel, ?_, by simp [hparse]⟩
  · intro fault hfault
    obtain rfl := Except.error.inj (hparse.symm.trans hfault)
    simp
  · obtain ⟨a, us, hus, ha, hrest⟩ := List.map_eq_cons_iff.mp hkinds
    obtain ⟨b, vs, rfl, hb, hrest⟩ := List.map_eq_cons_iff.mp hrest
    obtain ⟨c, ws, rfl, hc, hrest⟩ := List.map_eq_cons_iff.mp hrest
    obtain ⟨d, rfl, hd⟩ := List.map_eq_singleton_iff.mp hrest
    rw [hus]
    have hinner := BroadElement.tag hb .nil (.semicolon hc)
    exact ⟨_, .cons (.tag ha .nil (.terminated hinner hd)) .nil⟩

end BraceMarkup
