import BraceMarkup.Proofs.Element.Blocks
import BraceMarkup.Proofs.Element.OnDemand
import BraceMarkup.Proofs.Token.Observed

/-! Only braces nest. While a text is built, not more than two calls for an element are active
beyond one for each open brace, since a body without braces never starts with a name. So the braces
of a text tell the depth of its tree, up to two, and which limits on nesting it exceeds. -/

namespace BraceMarkup

open Feed Token

namespace Grammar

section Calls

open Watch

variable {σ : Type} [TokenSource σ] {W : Watch} {a : Nat} {w ts : List Token}
  {X : Building (Observed σ) (Option (Element Span))}

lemma keeps_tagAttribute (ha : (a : Int) ≤ 2 + openBraces w) :
    W.Keeps a w ts (tagAttribute : Building (Observed σ) _) fun _ v _ =>
      v ≠ [] ∧ openBraces v = 0 := by
  refine (keeps_expect ha _ _).bind ?_
  rintro name v rest - ⟨hname, rfl⟩
  have ha : (a : Int) ≤ 2 + openBraces (w ++ [name]) := by simpa [hname, Kind.opens] using ha
  apply keeps_isNext_bind ha
  · rintro q us rfl hq
    apply keeps_take_bind ha
    have ha : (a : Int) ≤ 2 + openBraces (w ++ [name] ++ [q]) := by simpa [hq, Kind.opens] using ha
    refine (keeps_expect ha _ _).bind ?_
    rintro value v rest - ⟨hvalue, rfl⟩
    exact .pure (by simp [hname, hq, hvalue, Kind.opens])
  · intro _
    exact .pure (by simp [hname, Kind.opens])

lemma keeps_attributes (ha : (a : Int) ≤ 2 + openBraces w) :
    W.Keeps a w ts (many tagAttribute? : Building (Observed σ) _) fun _ v rest =>
      openBraces v = 0 ∧ ∀ t ∈ rest.head?, t.kind ≠ .name := by
  apply keeps_many
  intro w' ts' hw
  rw [← hw] at ha
  apply keeps_isNext_bind ha
  · intro _ _ _ _
    refine (keeps_tagAttribute ha).bind ?_
    rintro _ v rest - hv
    exact .pure (by simpa using! hv)
  · exact fun hnone => .pure ⟨rfl, hnone⟩

lemma keeps_required (ha : (a : Int) ≤ 2 + openBraces w)
    (hX : W.Keeps a w ts X (Progress fun _ => True)) :
    W.Keeps a w ts (required X) fun _ v _ => v ≠ [] ∧ openBraces v = 0 := by
  refine hX.bind ?_
  rintro (_ | e) v rest - hv
  · obtain ⟨rfl, -⟩ := hv
    rw [List.append_nil]
    exact keeps_reject ha (by simp)
  · exact .pure (by simpa using! hv)

def Callable (a : Nat) (w ts : List Token) : Prop :=
  (a : Int) ≤ 1 + openBraces w ∧ ∀ t ∈ ts.head?, t.kind = .name → (a : Int) ≤ openBraces w

lemma keeps_children (ha : (a : Int) ≤ openBraces w)
    (hX : ∀ w ts, Callable a w ts → W.Keeps a w ts X (Progress fun _ => True)) :
    W.Keeps a w ts (many (child? X)) fun _ v rest =>
      openBraces v = 0 ∧ ∃ r us, rest = r :: us ∧ r.kind = .rightBrace := by
  apply keeps_many
  intro w' ts' hw
  rw [← hw] at ha
  apply keeps_isNext_bind (by omega)
  · exact fun r us hrest hr => .pure ⟨rfl, r, us, hrest, hr⟩
  · intro _
    refine (keeps_required (by omega) (hX w' ts' ⟨by omega, fun _ _ _ => ha⟩)).bind ?_
    rintro e v rest - hv
    exact .pure (by simpa using! hv)

lemma keeps_body (ha : (a : Int) ≤ 1 + openBraces w) (hts : ∀ t ∈ ts.head?, t.kind ≠ .name)
    (hX : ∀ w ts, Callable a w ts → W.Keeps a w ts X (Progress fun _ => True)) :
    W.Keeps a w ts (body X) fun _ v _ => openBraces v = 0 := by
  have ha₂ : (a : Int) ≤ 2 + openBraces w := by omega
  apply keeps_isNext_bind ha₂
  · rintro s us rfl hs
    apply keeps_take_bind ha₂
    exact .pure (by simp [hs, Kind.opens])
  · intro _
    apply keeps_isNext_bind ha₂
    · rintro l us rfl hl
      apply keeps_take_bind ha₂
      have hopen : openBraces (w ++ [l]) = openBraces w + 1 := by simp [hl, Kind.opens]
      refine (keeps_children (by omega) hX).bind ?_
      rintro es v rest - ⟨hv, r, us, rfl, hr⟩
      have ha₃ : (a : Int) ≤ 2 + openBraces (w ++ [l] ++ v) := by
        rw [openBraces_append, hopen, hv]
        omega
      apply keeps_take_bind ha₃
      exact .pure (by simp [hl, hr, hv, Kind.opens])
    · intro _
      -- what follows the attributes is no name, so one call more than in braces is allowed
      have hcall : Callable a w ts := ⟨ha, fun t ht hname => (hts t ht hname).elim⟩
      refine (keeps_required ha₂ (hX w ts hcall)).bind ?_
      rintro e v rest - ⟨-, hv⟩
      have ha₃ : (a : Int) ≤ 2 + openBraces (w ++ v) := by
        rw [openBraces_append, hv]
        omega
      apply keeps_isNext_bind ha₃
      · rintro s us rfl hs
        apply keeps_take_bind ha₃
        exact .pure (by simp [hv, hs, Kind.opens])
      · exact fun _ => .pure (by simpa using hv)

lemma keeps_tag (ha : (a : Int) ≤ 1 + openBraces w)
    (hX : ∀ w ts, Callable a w ts → W.Keeps a w ts X (Progress fun _ => True)) :
    W.Keeps a w ts (tag X) fun _ v _ => v ≠ [] ∧ openBraces v = 0 := by
  refine (keeps_expect (by omega) _ _).bind ?_
  rintro name v rest - ⟨hname, rfl⟩
  have ha : (a : Int) ≤ 1 + openBraces (w ++ [name]) := by simpa [hname, Kind.opens] using ha
  refine (keeps_attributes (by omega)).bind ?_
  rintro attributes v rest - ⟨hv, hrest⟩
  have ha : (a : Int) ≤ 1 + openBraces (w ++ [name] ++ v) := by
    rw [openBraces_append, hv]
    omega
  refine (keeps_body ha hrest hX).bind ?_
  rintro es v' rest - hv'
  exact .pure (by simp [hname, hv, hv', Kind.opens])

lemma keeps_elementOver (ha : (a : Int) ≤ 2 + openBraces w)
    (hname : ∀ t ∈ ts.head?, t.kind = .name → (a : Int) ≤ 1 + openBraces w)
    (hX : ∀ w ts, Callable a w ts → W.Keeps a w ts X (Progress fun _ => True)) :
    W.Keeps a w ts (elementOver X) (Progress fun _ => True) := by
  apply keeps_peek_bind ha
  cases ts with
  | nil => exact .pure ⟨rfl, trivial⟩
  | cons t ts =>
    dsimp only [List.head?_cons]
    cases hkind : t.kind with
    | name =>
      refine (keeps_tag (hname t rfl hkind) hX).bind ?_
      rintro e v rest - hv
      exact .pure (by simpa using! hv)
    | string | html | script | style =>
      apply keeps_take_bind ha
      refine .pure ⟨List.cons_ne_nil _ _, ?_⟩
      simp [hkind, Kind.opens]
    | equal | leftBrace | rightBrace | semicolon => exact .pure ⟨rfl, trivial⟩

def observedElement : (limit : Nat) → Building (Observed σ) (Option (Element Span))
  | 0 => call (reject .nestingTooDeep)
  | limit + 1 => call (elementOver (observedElement limit))

def observedDocument (limit : Nat) : Building (Observed σ) (List (Element Span)) :=
  documentOf (observedElement limit)

lemma lockstep_observedElement (limit : Nat) :
    Lockstep observing (element limit : Building σ _) (observedElement limit) := by
  induction limit with
  | zero => exact (lawful_observing.reject rfl).call
  | succ limit ih => exact (lockstep_elementOver lawful_observing ih).call

lemma openBraces_of_progress {α : Type} {Last : List Token → Prop} {r : Option α}
    {v rest : List Token} (h : Progress Last r v rest) : openBraces v = 0 := by
  cases r with
  | none => rw [h.1, openBraces_nil]
  | some r => exact h.2

lemma keeps_observedElement {limit : Nat} (hlimit : a + limit = W.limit) (h : Callable a w ts) :
    W.Keeps a w ts (observedElement limit : Building (Observed σ) _) (Progress fun _ => True) := by
  obtain ⟨ha, hname⟩ := h
  induction limit generalizing a w ts with
  | zero =>
    have ha' : ((a + 1 : Nat) : Int) ≤ 2 + openBraces w := by omega
    refine keeps_call ?_ ha' fun _ _ _ => openBraces_of_progress
    exact keeps_reject ha' fun _ => by omega
  | succ limit ih =>
    have ha' : ((a + 1 : Nat) : Int) ≤ 2 + openBraces w := by omega
    refine keeps_call ?_ ha' fun _ _ _ => openBraces_of_progress
    refine keeps_elementOver ha' ?_ ?_
    · intro t ht hkind
      have := hname t ht hkind
      omega
    · exact fun w ts hcall => ih (by omega) hcall.1 hcall.2

lemma keeps_observedDocument :
    W.Keeps 0 [] ts (observedDocument W.limit : Building (Observed σ) _) fun _ _ _ => True := by
  have hmany : W.Keeps 0 [] ts (many (observedElement W.limit) : Building (Observed σ) _)
      fun _ v _ => openBraces v = 0 ∧ True := by
    apply keeps_many
    intro w' ts' hw
    rw [openBraces_nil] at hw
    exact keeps_observedElement (Nat.zero_add _) ⟨by omega, fun _ _ _ => by omega⟩
  refine hmany.bind ?_
  rintro es v rest - ⟨hv, -⟩
  have ha : ((0 : Nat) : Int) ≤ 2 + openBraces ([] ++ v) := by
    rw [List.nil_append, hv]
    decide
  apply keeps_peek_bind ha
  cases rest with
  | nil => exact .pure trivial
  | cons t rest => exact keeps_reject ha (by simp)

lemma not_name_after_attributes {f g g' : Feed σ} {ending : Ending}
    {attributes : List (Attribute Span)} {t : Token} (hf : Offers f ts ending)
    (hb : ts.length < f.bound) (h : many tagAttribute? f = .ok attributes g)
    (hp : peek g = .ok (some t) g') : t.kind ≠ .name := by
  cases outcome_attributes (σ := σ) ts ending with
  | accepted w rest as hts has hrun =>
    obtain ⟨-, hahead⟩ := has
    subst hts
    obtain ⟨g₀, hok, hg₀, -⟩ := (hrun rest ending (.refl rest ending)).many.2 f hf hb
    obtain ⟨-, rfl⟩ := EStateM.Result.ok.inj (h.symm.trans hok)
    cases rest with
    | cons u rest =>
      obtain ⟨_, hpeek, -⟩ := peek_of_offers hg₀
      obtain ⟨rfl, -⟩ : t = u ∧ _ := by simpa using hp.symm.trans hpeek
      exact hahead
    | nil =>
      cases ending with
      | ok span =>
        obtain ⟨_, hpeek, -⟩ := peek_of_offers_end hg₀
        cases hp.symm.trans hpeek
      | error fault => exact hahead.elim
  | refused w rest cause hts _ _ hrun =>
    subst hts
    obtain ⟨_, herror⟩ := (hrun rest ending (.refl rest ending)).many f hf hb
    cases h.symm.trans herror
  | tooDeep fault _ hrun =>
    obtain ⟨_, herror⟩ := hrun.many f hf hb
    cases h.symm.trans herror

end Calls

section Trees

structure Nests (ts : List Token) (depth : Nat) : Prop where
  closed : openBraces ts = 0
  mostOpen_le : mostOpen ts ≤ depth + 1
  depth_le : (depth : Int) ≤ mostOpen ts + 2

variable {u v ts : List Token} {m n : Nat}

lemma Nests.append (hu : Nests u m) (hv : Nests v n) : Nests (u ++ v) (max m n) := by
  obtain ⟨hu₁, hu₂, hu₃⟩ := hu
  obtain ⟨hv₁, hv₂, hv₃⟩ := hv
  have hmost := mostOpen_append u v
  rw [hu₁] at hmost
  refine ⟨?_, ?_, ?_⟩
  · rw [openBraces_append, hu₁, hv₁, add_zero]
  · omega
  · omega

lemma Nests.flat_append (hu : ∀ t ∈ u, t.kind.opens = 0) (hv : Nests v n) : Nests (u ++ v) n := by
  induction u with
  | nil => exact hv
  | cons t u ih =>
    obtain ⟨h₁, h₂, h₃⟩ := ih fun t' ht' => hu t' (List.mem_cons_of_mem t ht')
    have ht := hu t List.mem_cons_self
    have hnonneg := mostOpen_nonneg (u ++ v)
    refine ⟨?_, ?_, ?_⟩
    · rw [List.cons_append, openBraces_cons, ht, h₁, add_zero]
    · rw [List.cons_append, mostOpen, ht]
      omega
    · rw [List.cons_append, mostOpen, ht]
      omega

lemma nests_flat (hts : ∀ t ∈ ts, t.kind.opens = 0) (hn : n ≤ 2) : Nests ts n := by
  have hnil : Nests [] n := ⟨rfl, by rw [mostOpen]; omega, by rw [mostOpen]; omega⟩
  have hflat := hnil.flat_append hts
  rwa [List.append_nil] at hflat

lemma LeafTree.opens {t : Token} {e : Element Span} (h : LeafTree t e) : t.kind.opens = 0 := by
  cases h with
  | string h | html h | script h | style h => rw [h]; rfl

lemma AttributeTrees.opens {as : List (Attribute Span)} (h : AttributeTrees ts as) :
    ∀ t ∈ ts, t.kind.opens = 0 := by
  induction h with
  | nil => simp
  | cons ha _ ih =>
    intro t ht
    rcases List.mem_append.mp ht with ht | ht
    · cases ha with
      | bare hn =>
        rw [List.mem_singleton.mp ht, hn]
        rfl
      | valued hn hq hv =>
        simp only [List.mem_cons, List.not_mem_nil, or_false] at ht
        rcases ht with rfl | rfl | rfl
        · rw [hn]; rfl
        · rw [hq]; rfl
        · rw [hv]; rfl
    · exact ih t ht

def bodyDepth (es : List (Element Span)) : Nat :=
  if es.isEmpty then 0 else 1 + Element.maxDepth es

lemma bodyDepth_leaf {t : Token} {e : Element Span} (h : LeafTree t e) : bodyDepth [e] ≤ 2 := by
  have hdepth := h.depth_le
  rw [bodyDepth, List.isEmpty_cons, if_neg Bool.false_ne_true, Element.maxDepth, Element.maxDepth]
  omega

lemma Nests.braces {l r : Token} {es : List (Element Span)} (hl : l.kind = .leftBrace)
    (hr : r.kind = .rightBrace) (h : Nests ts (Element.maxDepth es)) (hnil : es = [] → ts = []) :
    Nests (l :: ts ++ [r]) (bodyDepth es) := by
  obtain ⟨h₁, h₂, h₃⟩ := h
  have hnonneg := mostOpen_nonneg ts
  have hl' : l.kind.opens = 1 := by rw [hl]; rfl
  have hr' : r.kind.opens = -1 := by rw [hr]; rfl
  have hmost : mostOpen (l :: ts ++ [r]) = 1 + mostOpen ts := by
    rw [List.cons_append, mostOpen, mostOpen_append, mostOpen, mostOpen, h₁, hl', hr']
    omega
  have hdepth : mostOpen ts ≤ bodyDepth es ∧ bodyDepth es ≤ mostOpen ts + 3 := by
    cases es with
    | nil =>
      rw [hnil rfl]
      decide
    | cons e es =>
      rw [bodyDepth, List.isEmpty_cons, if_neg Bool.false_ne_true]
      push_cast
      omega
  refine ⟨?_, by omega, by omega⟩
  rw [List.cons_append, openBraces_cons, openBraces_append, openBraces_cons, openBraces_nil, h₁,
    hl', hr']
  rfl

lemma ElementTrees.eq_nil (h : ElementTrees ts []) : ts = [] := by
  cases h
  rfl

mutual

theorem ElementTree.nests {ts : List Token} {e : Element Span} :
    ElementTree ts e → Nests ts e.depth
  | .leaf h => by
    apply nests_flat
    · intro t ht
      rw [List.mem_singleton.mp ht]
      exact h.opens
    · exact h.depth_le.trans (by decide)
  | .tag (n := n) hn has hbs => by
    have hname : n.kind.opens = 0 := by rw [hn]; rfl
    apply Nests.flat_append
    · intro t ht
      rcases List.mem_cons.mp ht with rfl | ht
      · exact hname
      · exact has.opens t ht
    · exact hbs.nests

theorem BodyTree.nests {ts : List Token} {es : List (Element Span)} :
    BodyTree ts es → Nests ts (bodyDepth es)
  | .semicolon hs => by
    apply nests_flat
    · intro t ht
      rw [List.mem_singleton.mp ht, hs]
      rfl
    · exact Nat.zero_le 2
  | .braces hl hes hr => by
    refine hes.nests.braces hl hr ?_
    rintro rfl
    exact hes.eq_nil
  | .leaf h => by
    refine nests_flat ?_ (bodyDepth_leaf h)
    intro t ht
    rw [List.mem_singleton.mp ht]
    exact h.opens
  | .leafSemicolon h hs => by
    refine nests_flat ?_ (bodyDepth_leaf h)
    intro t ht
    rcases List.mem_pair.mp ht with rfl | rfl
    · exact h.opens
    · rw [hs]
      rfl

theorem ElementTrees.nests {ts : List Token} {es : List (Element Span)} :
    ElementTrees ts es → Nests ts (Element.maxDepth es)
  | .nil => nests_flat nofun (Nat.zero_le 2)
  | .cons he hes => he.nests.append hes.nests

end

end Trees

end Grammar

open Grammar

def observedFeed (s : Text) : Feed (Observed Cursor) :=
  ofSource { source := Cursor.ofText s }

def bracesOpen (s : Text) : Int :=
  mostOpen (Cursor.ofText s).drain.tokens

variable {limit : Nat} {s : Text}

lemma outcome_observedDocument (limit : Nat) (s : Text) :
    outcome (observedDocument limit) (observedFeed s) = parseWithin limit s := by
  have hagree := lockstep_documentOf lawful_observing (lockstep_observedElement limit)
    (ofSource (Cursor.ofText s)) (observedFeed s) rfl
  exact hagree.outcome_eq fun _ _ => id

def watchOf (limit : Nat) (s : Text) : Watch where
  tokens := (Cursor.ofText s).drain.tokens
  ending := (Recording.ofCursor (.ofText s)).ending
  limit := limit
  ending_ne fault h hc := by
    have hlexical := isLexical_of_ending h
    rw [hc] at hlexical
    cases hlexical

lemma stands_ofText (limit : Nat) (s : Text) :
    (watchOf limit s).Stands (observedFeed s) 0 [] (Cursor.ofText s).drain.tokens where
  tokens_eq := rfl
  offers := .fresh rfl rfl (supplies_ofCursor _)
  given_eq := rfl
  active_eq := rfl
  lt_bound := Nat.lt_succ_of_le (length_ofCursor _)
  allowed := nofun
  levels k hk hka := by omega

lemma notes_observedDocument (limit : Nat) (s : Text) :
    (∀ note ∈ notes (observedDocument limit) (observedFeed s), (watchOf limit s).Allowed note) ∧
    ∀ fault, parseWithin limit s = .error fault → fault.cause = .nestingTooDeep →
      ∃ taken, (limit + 1, taken) ∈ notes (observedDocument limit) (observedFeed s) := by
  rw [← outcome_observedDocument]
  exact keeps_observedDocument.notes (stands_ofText limit s)

lemma lt_bracesOpen_of_tooDeep {fault : Fault} (h : parseWithin limit s = .error fault)
    (hc : fault.cause = .nestingTooDeep) : (limit : Int) - 2 < bracesOpen s := by
  obtain ⟨hallowed, htooDeep⟩ := notes_observedDocument limit s
  obtain ⟨taken, hseen⟩ := htooDeep fault h hc
  obtain ⟨hinit, hactive⟩ := hallowed _ hseen
  have hle : openBraces taken ≤ bracesOpen s := openBraces_le_mostOpen hinit
  push_cast at hactive
  omega

lemma withinLimit_of_bracesOpen_le (h : bracesOpen s + 2 ≤ limit) : WithinLimit limit s := by
  intro fault hfault hc
  have := lt_bracesOpen_of_tooDeep hfault hc
  omega

lemma exists_unlimited (s : Text) :
    ∃ unlimited, (∀ limit : Nat, bracesOpen s + 2 ≤ limit → parseWithin limit s = unlimited) ∧
      (∀ fault, unlimited = .error fault → fault.cause ≠ .nestingTooDeep) ∧
      ∀ limit : Nat, parseWithin limit s = unlimited ∨
        ∃ fault, parseWithin limit s = .error fault ∧ fault.cause = .nestingTooDeep ∧
          (limit : Int) - 2 < bracesOpen s := by
  have hlarge : WithinLimit (bracesOpen s + 2).toNat s :=
    withinLimit_of_bracesOpen_le (Int.self_le_toNat _)
  refine ⟨parseWithin (bracesOpen s + 2).toNat s, ?_, hlarge, ?_⟩
  · exact fun limit h => parseWithin_of_le hlarge (by omega)
  · intro limit
    by_cases hs : WithinLimit limit s
    · left
      rw [← parseWithin_of_le hs (le_max_left limit (bracesOpen s + 2).toNat)]
      exact parseWithin_of_le hlarge (le_max_right limit _)
    · right
      simp only [WithinLimit, not_forall, not_not] at hs
      obtain ⟨fault, hfault, hc⟩ := hs
      exact ⟨fault, hfault, hc, lt_bracesOpen_of_tooDeep hfault hc⟩

/-- Only braces nest, and the limit on nesting changes nothing else. While a text is built, not more
than two calls for an element are active beyond one for each brace that was taken and not closed,
and a body never starts with a name. A text that parses has at least the depth of its braces open at
once less one, and at most two more. There is one outcome that all limits give that are large
enough, and it is no refusal for nesting; any other limit gives that outcome too, or refuses the
text for its nesting when a call beyond the limit starts, and then more braces are open at once than
the limit less two. A higher limit changes no other outcome. -/
theorem parseWithin_nesting (s : Text) :
    (∀ limit, outcome (observedDocument limit) (observedFeed s) = parseWithin limit s ∧
      (∀ active taken, (active, taken) ∈ notes (observedDocument limit) (observedFeed s) →
        taken <+: (Cursor.ofText s).drain.tokens ∧ (active : Int) ≤ 2 + openBraces taken) ∧
      ∀ fault, parseWithin limit s = .error fault → fault.cause = .nestingTooDeep →
        ∃ taken, (limit + 1, taken) ∈ notes (observedDocument limit) (observedFeed s)) ∧
    (∀ (f : Feed Cursor) ts ending, Offers f ts ending → ts.length < f.bound →
      ∀ attributes g t g', many tagAttribute? f = .ok attributes g → peek g = .ok (some t) g' →
        t.kind ≠ .name) ∧
    IsGreatest {n | ∃ w, w <+: (Cursor.ofText s).drain.tokens ∧ n = openBraces w}
      (bracesOpen s) ∧
    (∀ limit es, parseWithin limit s = .ok es →
      bracesOpen s - 1 ≤ Element.maxDepth es ∧ Element.maxDepth es ≤ bracesOpen s + 2) ∧
    (∃ unlimited, (∀ limit : Nat, bracesOpen s + 2 ≤ limit → parseWithin limit s = unlimited) ∧
      (∀ fault, unlimited = .error fault → fault.cause ≠ .nestingTooDeep) ∧
      ∀ limit : Nat, parseWithin limit s = unlimited ∨
        ∃ fault, parseWithin limit s = .error fault ∧ fault.cause = .nestingTooDeep ∧
          (limit : Int) - 2 < bracesOpen s) ∧
    ∀ limit limit', WithinLimit limit s → limit ≤ limit' →
      parseWithin limit' s = parseWithin limit s := by
  refine ⟨fun limit => ⟨outcome_observedDocument limit s, ?_, (notes_observedDocument limit s).2⟩,
    ?_, isGreatest_mostOpen _, ?_, exists_unlimited s, ?_⟩
  · exact fun active taken => (notes_observedDocument limit s).1 (active, taken)
  · exact fun f ts ending hf hb attributes g t g' => not_name_after_attributes hf hb
  · intro limit es h
    obtain ⟨-, hmost, hdepth⟩ := (elementsWithin_of_parseWithin h).2.1.nests
    change bracesOpen s ≤ Element.maxDepth es + 1 at hmost
    exact ⟨by omega, hdepth⟩
  · exact fun limit limit' => parseWithin_of_le

example : bracesOpen "a\x7b\x7d".toList = 1 ∧
    (parse "a\x7b\x7d".toList).map Element.maxDepth = .ok 0 := by
  decide +kernel

example : bracesOpen "a\x7bb js\x7bx\x7d\x7d".toList = 1 ∧
    (parse "a\x7bb js\x7bx\x7d\x7d".toList).map Element.maxDepth = .ok 3 := by
  decide +kernel

end BraceMarkup
