import BraceMarkup.Proofs.Element.Productions

/-! The grammar of elements as derivations of a tree from tokens.

    document  = element*
    element   = leaf | tag
    leaf      = string | raw markup | embedded block
    tag       = name attribute* body
    attribute = name | name "=" string
    body      = ";" | "{" element* "}" | leaf | leaf ";"

Whatever is derived here is built, as long as the limit allows its depth. -/

namespace BraceMarkup.Grammar

open Feed

inductive LeafTree : Token → Element Span → Prop
  | string {t : Token} : t.kind = .string → LeafTree t (.text t.lexeme.tail.dropLast t.span)
  | html {t : Token} : t.kind = .html → LeafTree t (.raw t.lexeme t.span)
  | script {t : Token} : t.kind = .script → LeafTree t (Element.ofBlock t)
  | style {t : Token} : t.kind = .style → LeafTree t (Element.ofBlock t)

inductive AttributeTree : List Token → Attribute Span → Prop
  | bare {n : Token} : n.kind = .name → AttributeTree [n] ⟨n.lexeme, none, n.span⟩
  | valued {n q v : Token} : n.kind = .name → q.kind = .equal → v.kind = .string →
      AttributeTree [n, q, v] ⟨n.lexeme, some v.lexeme, n.span⟩

inductive AttributeTrees : List Token → List (Attribute Span) → Prop
  | nil : AttributeTrees [] []
  | cons {ts us : List Token} {a : Attribute Span} {as : List (Attribute Span)} :
      AttributeTree ts a → AttributeTrees us as → AttributeTrees (ts ++ us) (a :: as)

mutual

inductive ElementTree : List Token → Element Span → Prop
  | leaf {t : Token} {e : Element Span} : LeafTree t e → ElementTree [t] e
  | tag {n : Token} {ts us : List Token} {as : List (Attribute Span)} {es : List (Element Span)} :
      n.kind = .name → AttributeTrees ts as → BodyTree us es →
      ElementTree (n :: ts ++ us) (.tag n.lexeme as es n.span)

inductive BodyTree : List Token → List (Element Span) → Prop
  | semicolon {s : Token} : s.kind = .semicolon → BodyTree [s] []
  | braces {l r : Token} {ts : List Token} {es : List (Element Span)} : l.kind = .leftBrace →
      ElementTrees ts es → r.kind = .rightBrace → BodyTree (l :: ts ++ [r]) es
  | leaf {t : Token} {e : Element Span} : LeafTree t e → BodyTree [t] [e]
  | leafSemicolon {t s : Token} {e : Element Span} : LeafTree t e → s.kind = .semicolon →
      BodyTree [t, s] [e]

inductive ElementTrees : List Token → List (Element Span) → Prop
  | nil : ElementTrees [] []
  | cons {ts us : List Token} {e : Element Span} {es : List (Element Span)} :
      ElementTree ts e → ElementTrees us es → ElementTrees (ts ++ us) (e :: es)

end

lemma AttributeTree.single {ts : List Token} {a : Attribute Span} (h : AttributeTree ts a) :
    AttributeTrees ts [a] := by
  simpa using AttributeTrees.cons h .nil

lemma ElementTree.single {ts : List Token} {e : Element Span} (h : ElementTree ts e) :
    ElementTrees ts [e] := by
  simpa using ElementTrees.cons h .nil

lemma ne_of_startsElement {k : Token.Kind} (h : startsElement k = true) :
    k ≠ .equal ∧ k ≠ .leftBrace ∧ k ≠ .rightBrace ∧ k ≠ .semicolon := by
  cases k <;> simp_all [startsElement]

lemma LeafTree.starts {t : Token} {e : Element Span} (h : LeafTree t e) :
    startsElement t.kind = true := by
  cases h with
  | string h | html h | script h | style h => rw [h]; rfl

lemma LeafTree.ne_name {t : Token} {e : Element Span} (h : LeafTree t e) : t.kind ≠ .name := by
  cases h with
  | string h | html h | script h | style h => simp [h]

lemma ElementTree.starts {ts : List Token} {e : Element Span} (h : ElementTree ts e) :
    ∃ t us, ts = t :: us ∧ startsElement t.kind = true := by
  cases h with
  | leaf h => exact ⟨_, [], rfl, h.starts⟩
  | @tag n ts us _ _ hn _ _ => exact ⟨n, ts ++ us, rfl, by rw [hn]; rfl⟩

lemma ElementTree.ne_nil {ts : List Token} {e : Element Span} (h : ElementTree ts e) : ts ≠ [] := by
  obtain ⟨t, us, rfl, _⟩ := h.starts
  simp

section Depth

variable {ℓ : Type} {e : Element ℓ} {es : List (Element ℓ)} {n : Nat}

lemma maxDepth_lt_iff (hn : 0 < n) : Element.maxDepth es < n ↔ ∀ e ∈ es, e.depth < n := by
  induction es with
  | nil => simpa [Element.maxDepth] using hn
  | cons e es ih => simp [Element.maxDepth, ih]

lemma depth_lt_of_mem_children {name : Text} {attributes : List (Attribute ℓ)} {location : ℓ}
    (h : (Element.tag name attributes es location).depth < n + 1) (he : e ∈ es) : e.depth < n := by
  have hne : es ≠ [] := List.ne_nil_of_mem he
  have hd : 1 + Element.maxDepth es < n + 1 := by simpa [Element.depth, hne] using h
  exact (maxDepth_lt_iff (by omega)).mp (by omega) e he

lemma depth_ofBlock_lt (t : Token) : (Element.ofBlock t).depth < 2 := by
  have hraws : Element.maxDepth ((Element.blockContent t.interior).map (.raw · t.span)) < 1 := by
    rw [maxDepth_lt_iff (by decide)]
    simp [Element.depth]
  rw [Element.ofBlock, Element.depth]
  split
  · decide
  · omega

lemma LeafTree.depth_le {t : Token} {e : Element Span} (h : LeafTree t e) : e.depth ≤ 1 := by
  cases h with
  | string | html => exact Nat.zero_le 1
  | script | style => exact Nat.le_of_lt_succ (depth_ofBlock_lt t)

end Depth

section Acceptance

variable {σ : Type} [TokenSource σ] {ts rest : List Token} {ending : Ending}

lemma ElementTrees.ahead {es : List (Element Span)} {p : Token.Kind → Prop}
    (h : ElementTrees ts es) (hp : ∀ k, startsElement k = true → p k)
    (hrest : Ahead p rest ending) : Ahead p (ts ++ rest) ending := by
  cases h with
  | nil => exact hrest
  | cons he _ =>
    obtain ⟨t, us, rfl, ht⟩ := he.starts
    exact hp _ ht

lemma AttributeTrees.ahead {as : List (Attribute Span)} (h : AttributeTrees ts as)
    (hrest : Ahead (· ≠ .equal) rest ending) : Ahead (· ≠ .equal) (ts ++ rest) ending := by
  cases h with
  | nil => exact hrest
  | cons ha _ =>
    cases ha with
    | bare hn | valued hn _ _ => simp [Ahead, hn]

lemma BodyTree.ahead {es : List (Element Span)} (h : BodyTree ts es) :
    Ahead (· ≠ .name) (ts ++ rest) ending ∧ Ahead (· ≠ .equal) (ts ++ rest) ending := by
  cases h with
  | semicolon hs => simp [Ahead, hs]
  | braces hl _ _ => simp [Ahead, hl]
  | leaf h | leafSemicolon h _ =>
    exact ⟨h.ne_name, (ne_of_startsElement h.starts).1⟩

lemma runs_tagAttribute?_of_tree {a : Attribute Span} (h : AttributeTree ts a)
    (hrest : Ahead (· ≠ .equal) rest ending) :
    Runs (tagAttribute? : Building σ _) (ts ++ rest) ending (.ok (some a, rest)) := by
  cases h with
  | bare hn => exact runs_tagAttribute?_some hn (runs_tagAttribute_bare hn hrest)
  | valued hn hq hv => exact runs_tagAttribute?_some hn (runs_tagAttribute_valued hn hq hv)

lemma AttributeTree.length_pos {a : Attribute Span} (h : AttributeTree ts a) : 0 < ts.length := by
  cases h <;> simp

lemma runsMany_tagAttribute? {as : List (Attribute Span)} (h : AttributeTrees ts as)
    (hname : Ahead (· ≠ .name) rest ending) (hequal : Ahead (· ≠ .equal) rest ending) :
    RunsMany (tagAttribute? : Building σ _) (ts ++ rest) ending (.ok (as, rest)) := by
  induction h with
  | nil => exact .nil (runs_tagAttribute?_none hname)
  | @cons ts us a as ha has ih =>
    have hstep := runs_tagAttribute?_of_tree (σ := σ) ha (has.ahead hequal)
    rw [List.append_assoc]
    refine RunsMany.cons hstep ?_ ih
    have hpos := ha.length_pos
    simp only [List.length_append]
    omega

lemma runs_element_leaf {t : Token} {e : Element Span} (h : LeafTree t e) (limit : Nat) :
    Runs (element (limit + 1) : Building σ _) (t :: rest) ending (.ok (some e, rest)) := by
  refine (runs_peek_cons t rest).bind ?_
  dsimp only
  cases h with
  | string h | html h | script h | style h =>
    rw [h]
    exact (runs_take t rest).discard.bind (runs_pure _)

def Accepts (σ : Type) [TokenSource σ] (limit : Nat) : Prop :=
  ∀ {ts rest : List Token} {ending : Ending} {e : Element Span}, ElementTree ts e →
    e.depth < limit → Ahead (· ≠ .semicolon) rest ending →
    Runs (element limit : Building σ _) (ts ++ rest) ending (.ok (some e, rest))

lemma length_lt_of_elementTree {e : Element Span} (h : ElementTree ts e) (us : List Token) :
    us.length < (ts ++ us).length := by
  obtain ⟨t, vs, rfl, _⟩ := h.starts
  simp only [List.length_append, List.length_cons]
  omega

lemma runsMany_child? {limit : Nat} (hlimit : Accepts σ limit) {r : Token} {es : List (Element Span)}
    (h : ElementTrees ts es) (hr : r.kind = .rightBrace) (hd : ∀ e ∈ es, e.depth < limit) :
    RunsMany (child? (element limit : Building σ _)) (ts ++ r :: rest) ending
      (.ok (es, r :: rest)) := by
  induction es generalizing ts with
  | nil =>
    cases h
    exact .nil (runs_child?_none hr)
  | cons e es ih =>
    cases h with
    | @cons ts us _ _ he hes =>
      have hnext : Ahead (· ≠ .semicolon) (us ++ r :: rest) ending :=
        hes.ahead (fun _ hk => (ne_of_startsElement hk).2.2.2) (by simp [Ahead, hr])
      have hhead : Ahead (· ≠ .rightBrace) (ts ++ (us ++ r :: rest)) ending := by
        obtain ⟨t, vs, rfl, ht⟩ := he.starts
        exact (ne_of_startsElement ht).2.2.1
      have hstep := runs_child?_some hhead
        (runs_required_some (hlimit he (hd e (by simp)) hnext))
      rw [List.append_assoc]
      exact RunsMany.cons hstep (length_lt_of_elementTree he _)
        (ih hes fun f hf => hd f (List.mem_cons_of_mem e hf))

lemma runs_body_of_tree {limit : Nat} (hlimit : Accepts σ limit) {es : List (Element Span)}
    (h : BodyTree ts es) (hd : ∀ e ∈ es, e.depth < limit)
    (hrest : Ahead (· ≠ .semicolon) rest ending) :
    Runs (body (element limit : Building σ _)) (ts ++ rest) ending (.ok (es, rest)) := by
  cases h with
  | semicolon hs => exact runs_body_semicolon hs rest
  | @braces l r ts _ hl hes hr =>
    rw [List.cons_append, List.cons_append, List.append_assoc]
    exact runs_body_braces hl (runsMany_child? hlimit hes hr hd)
  | @leaf t e h =>
    obtain ⟨k, rfl⟩ := Nat.exists_eq_add_one_of_ne_zero (Nat.ne_zero_of_lt (hd e (by simp)))
    have hs : Ahead (· ≠ .semicolon) (t :: rest) ending :=
      (ne_of_startsElement h.starts).2.2.2
    have hl : Ahead (· ≠ .leftBrace) (t :: rest) ending :=
      (ne_of_startsElement h.starts).2.1
    exact runs_body_single hs hl (runs_required_some (runs_element_leaf h k)) hrest
  | @leafSemicolon t s e h hsemi =>
    obtain ⟨k, rfl⟩ := Nat.exists_eq_add_one_of_ne_zero (Nat.ne_zero_of_lt (hd e (by simp)))
    have hs : Ahead (· ≠ .semicolon) (t :: s :: rest) ending :=
      (ne_of_startsElement h.starts).2.2.2
    have hl : Ahead (· ≠ .leftBrace) (t :: s :: rest) ending :=
      (ne_of_startsElement h.starts).2.1
    exact runs_body_single_semicolon hs hl (runs_required_some (runs_element_leaf h k)) hsemi

lemma accepts (limit : Nat) : Accepts σ limit := by
  induction limit with
  | zero =>
    intro ts rest ending e _ hd
    exact (Nat.not_lt_zero _ hd).elim
  | succ limit ih =>
    intro ts rest ending e h hd hrest
    cases h with
    | leaf h => exact runs_element_leaf h limit
    | @tag n as bs attributes children hn has hbs =>
      -- the children are one level less deep, so the smaller limit is enough for them
      have hb := runs_body_of_tree ih hbs (fun e => depth_lt_of_mem_children hd) hrest
      obtain ⟨hname, hequal⟩ : Ahead (· ≠ .name) (bs ++ rest) ending ∧
          Ahead (· ≠ .equal) (bs ++ rest) ending := hbs.ahead
      have ha := runsMany_tagAttribute? (σ := σ) has hname hequal
      rw [List.cons_append, List.cons_append, List.append_assoc]
      exact runs_element_tag hn (runs_tag hn ha hb)

lemma runsMany_element {limit : Nat} {span : Span} {es : List (Element Span)}
    (h : ElementTrees ts es) (hlimit : 0 < limit) (hd : ∀ e ∈ es, e.depth < limit) :
    RunsMany (element limit : Building σ _) ts (.ok span) (.ok (es, [])) := by
  induction es generalizing ts with
  | nil =>
    cases h
    obtain ⟨k, rfl⟩ := Nat.exists_eq_add_one_of_ne_zero hlimit.ne'
    exact .nil (runs_element_none trivial)
  | cons e es ih =>
    cases h with
    | @cons ts us _ _ he hes =>
      have hnext : Ahead (· ≠ .semicolon) us (.ok span) := by
        have hnil : Ahead (· ≠ .semicolon) [] (.ok span) := trivial
        simpa using hes.ahead (fun _ hk => (ne_of_startsElement hk).2.2.2) hnil
      exact RunsMany.cons (accepts limit he (hd e (by simp)) hnext)
        (length_lt_of_elementTree he us) (ih hes fun f hf => hd f (List.mem_cons_of_mem e hf))

lemma runs_document_of_tree {limit : Nat} {es : List (Element Span)} (h : ElementTrees ts es)
    (hd : Element.maxDepth es < limit) (span : Span) :
    Runs (document limit : Building σ _) ts (.ok span) (.ok (es, [])) := by
  have hlimit : 0 < limit := Nat.zero_lt_of_lt hd
  exact runs_document (runsMany_element h hlimit ((maxDepth_lt_iff hlimit).mp hd))

lemma ElementTrees.unique {es fs : List (Element Span)} (h : ElementTrees ts es)
    (h' : ElementTrees ts fs) : es = fs := by
  -- both are what a document of these tokens builds, under a limit that allows both
  have hes := evaluate_recording (runs_document_of_tree h
    (Nat.lt_succ_of_le (Nat.le_max_left _ (Element.maxDepth fs))) {})
  have hfs := evaluate_recording (runs_document_of_tree h'
    (Nat.lt_succ_of_le (Nat.le_max_right (Element.maxDepth es) _)) {})
  exact Except.ok.inj (hes.symm.trans hfs)

end Acceptance

section Relocation

open Element

variable {t u : Token} {ts us : List Token}

lemma bare_ofBlock (hw : u.word = t.word) : (ofBlock u).bare = (ofBlock t).bare := by
  obtain ⟨hk, hx⟩ := Prod.mk.inj hw
  have hraw (ss : List Text) :
      bareAll (ss.map (raw · u.span)) = bareAll (ss.map (raw · t.span)) := by
    induction ss with
    | nil => rfl
    | cons s ss ih => simp [bareAll, bare, ih]
  simp only [ofBlock, bare, hk, Token.interior, hx, hraw]

lemma LeafTree.relocate {e : Element Span} (h : LeafTree t e) (hw : u.word = t.word) :
    ∃ f, LeafTree u f ∧ f.bare = e.bare := by
  obtain ⟨hk, hx⟩ := Prod.mk.inj hw
  cases h with
  | string h => exact ⟨_, .string (hk.trans h), by simp only [bare, hx]⟩
  | html h => exact ⟨_, .html (hk.trans h), by simp only [bare, hx]⟩
  | script h => exact ⟨_, .script (hk.trans h), bare_ofBlock hw⟩
  | style h => exact ⟨_, .style (hk.trans h), bare_ofBlock hw⟩

lemma AttributeTree.relocate {a : Attribute Span} (h : AttributeTree ts a)
    (hw : us.map Token.word = ts.map Token.word) : ∃ b, AttributeTree us b ∧ b.bare = a.bare := by
  cases h with
  | @bare n hn =>
    obtain ⟨m, rfl, hm⟩ := List.map_eq_singleton_iff.mp hw
    obtain ⟨hk, hx⟩ := Prod.mk.inj hm
    exact ⟨_, .bare (hk.trans hn), by simp [Attribute.bare, hx]⟩
  | @valued n q v hn hq hv =>
    obtain ⟨m, ms, rfl, hm, hms⟩ := List.map_eq_cons_iff.mp hw
    obtain ⟨p, ps, rfl, hp, hps⟩ := List.map_eq_cons_iff.mp hms
    obtain ⟨w, rfl, hv'⟩ := List.map_eq_singleton_iff.mp hps
    obtain ⟨hk, hx⟩ := Prod.mk.inj hm
    obtain ⟨hk', -⟩ := Prod.mk.inj hp
    obtain ⟨hk'', hx''⟩ := Prod.mk.inj hv'
    exact ⟨_, .valued (hk.trans hn) (hk'.trans hq) (hk''.trans hv),
      by simp [Attribute.bare, hx, hx'']⟩

lemma AttributeTrees.relocate {as : List (Attribute Span)} (h : AttributeTrees ts as)
    (hw : us.map Token.word = ts.map Token.word) :
    ∃ bs, AttributeTrees us bs ∧ bs.map Attribute.bare = as.map Attribute.bare := by
  induction h generalizing us with
  | nil =>
    obtain rfl := List.map_eq_nil_iff.mp hw
    exact ⟨[], .nil, rfl⟩
  | cons ha _ ih =>
    rw [List.map_append] at hw
    obtain ⟨us, vs, rfl, hu, hv⟩ := List.map_eq_append_iff.mp hw
    obtain ⟨b, hb, hb'⟩ := ha.relocate hu
    obtain ⟨bs, hbs, hbs'⟩ := ih hv
    exact ⟨b :: bs, .cons hb hbs, by simp [hb', hbs']⟩

mutual

theorem ElementTree.relocate {ts : List Token} {e : Element Span} :
    ElementTree ts e → ∀ {us : List Token}, us.map Token.word = ts.map Token.word →
      ∃ f, ElementTree us f ∧ f.bare = e.bare
  | .leaf h, us, hw => by
    obtain ⟨u, rfl, hu⟩ := List.map_eq_singleton_iff.mp hw
    obtain ⟨f, hf, hf'⟩ := h.relocate hu
    exact ⟨f, .leaf hf, hf'⟩
  | .tag hn has hbs, us, hw => by
    rw [List.cons_append, List.map_cons, List.map_append] at hw
    obtain ⟨m, us, rfl, hm, hus⟩ := List.map_eq_cons_iff.mp hw
    obtain ⟨us, vs, rfl, hu, hv⟩ := List.map_eq_append_iff.mp hus
    obtain ⟨hk, hx⟩ := Prod.mk.inj hm
    obtain ⟨bs, has', hbare⟩ := has.relocate hu
    obtain ⟨fs, hbs', hbare'⟩ := hbs.relocate hv
    exact ⟨_, .tag (hk.trans hn) has' hbs', by simp [bare, hx, hbare, hbare']⟩

theorem BodyTree.relocate {ts : List Token} {es : List (Element Span)} :
    BodyTree ts es → ∀ {us : List Token}, us.map Token.word = ts.map Token.word →
      ∃ fs, BodyTree us fs ∧ bareAll fs = bareAll es
  | .semicolon hs, us, hw => by
    obtain ⟨u, rfl, hu⟩ := List.map_eq_singleton_iff.mp hw
    exact ⟨[], .semicolon ((Prod.mk.inj hu).1.trans hs), rfl⟩
  | .braces hl hes hr, us, hw => by
    rw [List.cons_append, List.map_cons, List.map_append] at hw
    obtain ⟨l, us, rfl, hl', hus⟩ := List.map_eq_cons_iff.mp hw
    obtain ⟨us, vs, rfl, hu, hv⟩ := List.map_eq_append_iff.mp hus
    obtain ⟨r, rfl, hr'⟩ := List.map_eq_singleton_iff.mp hv
    obtain ⟨fs, hfs, hbare⟩ := hes.relocate hu
    exact ⟨fs, .braces ((Prod.mk.inj hl').1.trans hl) hfs ((Prod.mk.inj hr').1.trans hr), hbare⟩
  | .leaf h, us, hw => by
    obtain ⟨u, rfl, hu⟩ := List.map_eq_singleton_iff.mp hw
    obtain ⟨f, hf, hf'⟩ := h.relocate hu
    exact ⟨[f], .leaf hf, by simp [bareAll, hf']⟩
  | .leafSemicolon h hs, us, hw => by
    obtain ⟨u, us, rfl, hu, hus⟩ := List.map_eq_cons_iff.mp hw
    obtain ⟨v, rfl, hv⟩ := List.map_eq_singleton_iff.mp hus
    obtain ⟨f, hf, hf'⟩ := h.relocate hu
    exact ⟨[f], .leafSemicolon hf ((Prod.mk.inj hv).1.trans hs), by simp [bareAll, hf']⟩

theorem ElementTrees.relocate {ts : List Token} {es : List (Element Span)} :
    ElementTrees ts es → ∀ {us : List Token}, us.map Token.word = ts.map Token.word →
      ∃ fs, ElementTrees us fs ∧ bareAll fs = bareAll es
  | .nil, us, hw => by
    obtain rfl := List.map_eq_nil_iff.mp hw
    exact ⟨[], .nil, rfl⟩
  | .cons he hes, us, hw => by
    rw [List.map_append] at hw
    obtain ⟨us, vs, rfl, hu, hv⟩ := List.map_eq_append_iff.mp hw
    obtain ⟨f, hf, hf'⟩ := he.relocate hu
    obtain ⟨fs, hfs, hfs'⟩ := hes.relocate hv
    exact ⟨f :: fs, .cons hf hfs, by simp [bareAll, hf', hfs']⟩

end

lemma bareAll_unique {es fs : List (Element Span)} (h : ElementTrees ts es)
    (h' : ElementTrees us fs) (hw : us.map Token.word = ts.map Token.word) :
    bareAll fs = bareAll es := by
  obtain ⟨fs', hfs', hbare⟩ := h.relocate hw
  rw [h'.unique hfs', hbare]

end Relocation

end BraceMarkup.Grammar
