import BraceMarkup.Proofs.Element.Derivation

/-! Each production takes the tokens of a tree, or refuses a token and has taken the start of a
tree until then, or meets the limit. Of what it leaves or refuses only the first token matters. -/

namespace BraceMarkup.Grammar

open Feed

inductive Similar : List Token → Ending → List Token → Ending → Prop
  | kind {t t' : Token} {ts ts' : List Token} {ending ending' : Ending} : t'.kind = t.kind →
      Similar (t :: ts) ending (t' :: ts') ending'
  | keyword {t t' : Token} {ts ts' : List Token} {ending ending' : Ending} : t.kind = .name →
      t'.kind.isEmbedded = true → Similar (t :: ts) ending (t' :: ts') ending'
  | ended (ending : Ending) : Similar [] ending [] ending

namespace Similar

variable {t : Token} {ts ts' : List Token} {ending ending' : Ending} {k : Token.Kind}

lemma refl (ts : List Token) (ending : Ending) : Similar ts ending ts ending := by
  cases ts with
  | nil => exact .ended ending
  | cons t ts => exact .kind rfl

lemma append (w : List Token) (h : Similar ts ending ts' ending') :
    Similar (w ++ ts) ending (w ++ ts') ending' := by
  cases w with
  | nil => exact h
  | cons t w => exact .kind rfl

lemma ahead_ne (h : Similar ts ending ts' ending') (hk : k.isEmbedded = false)
    (hts : Ahead (· ≠ k) ts ending) : Ahead (· ≠ k) ts' ending' := by
  cases h with
  | kind h => simpa only [Ahead, h] using hts
  | keyword _ h =>
    rintro rfl
    simp [hk] at h
  | ended => exact hts

lemma head_ne (h : Similar ts ending ts' ending') (hk : k.isEmbedded = false)
    (hts : ∀ t ∈ ts.head?, t.kind ≠ k) : ∀ t ∈ ts'.head?, t.kind ≠ k := by
  cases h with
  | kind h => simpa [h] using hts
  | keyword _ h =>
    simp only [List.head?_cons, Option.mem_def, Option.some.injEq, forall_eq']
    rintro rfl
    simp [hk] at h
  | ended => exact hts

lemma exists_kind_eq (h : Similar (t :: ts) ending ts' ending') (ht : t.kind ≠ .name) :
    ∃ t' us, ts' = t' :: us ∧ t'.kind = t.kind := by
  cases h with
  | kind h => exact ⟨_, _, rfl, h⟩
  | keyword h => exact (ht h).elim

end Similar

def closers : List Token.Word :=
  [(.string, ['"', '"']), (.semicolon, [';']), (.rightBrace, [Token.closeBrace])]

def Viable {α : Type} (Tree : List Token → α → Prop) (ts : List Token) : Prop :=
  ∃ us a, (∀ u ∈ us, u.word ∈ closers) ∧ Tree (ts ++ us) a

section Outcomes

variable {α β : Type}

/-- How an action can go on the tokens: it accepts some of them as `Takes` says, it has taken some
of which `Starts` holds and refuses what comes then, or it meets the limit. -/
inductive Outcome (run : List Token → Ending → Except Fault (α × List Token) → Prop)
    (Takes : (taken rest : List Token) → α → Prop) (Starts : List Token → Prop) (ts : List Token)
    (ending : Ending) : Prop
  | accepted (w rest : List Token) (a : α) : ts = w ++ rest → Takes w rest a →
      (∀ rest' ending', Similar rest ending rest' ending' →
        run (w ++ rest') ending' (.ok (a, rest'))) → Outcome run Takes Starts ts ending
  | refused (w rest : List Token) (cause : Fault.Cause) : ts = w ++ rest → Starts w →
      cause ≠ .nestingTooDeep →
      (∀ rest' ending', Similar rest ending rest' ending' →
        run (w ++ rest') ending' (.error (refusal cause rest' ending'))) →
      Outcome run Takes Starts ts ending
  | tooDeep (fault : Fault) : fault.cause = .nestingTooDeep → run ts ending (.error fault) →
      Outcome run Takes Starts ts ending

variable {run : List Token → Ending → Except Fault (α × List Token) → Prop}
  {run' : List Token → Ending → Except Fault (β × List Token) → Prop}
  {Takes : (taken rest : List Token) → α → Prop} {Takes' : (taken rest : List Token) → β → Prop}
  {Starts Starts' : List Token → Prop} {ts rest : List Token} {ending : Ending}

lemma Outcome.extend (h : Outcome run Takes Starts rest ending) (w : List Token) (g : α → β)
    (hrun : ∀ rest' ending' o, Similar rest ending rest' ending' → run rest' ending' o →
      run' (w ++ rest') ending' (o.map fun p => (g p.1, p.2)))
    (htakes : ∀ w' rest' a, Takes w' rest' a → Takes' (w ++ w') rest' (g a))
    (hstarts : ∀ w', Starts w' → Starts' (w ++ w')) :
    Outcome run' Takes' Starts' (w ++ rest) ending := by
  cases h with
  | accepted w' rest a hts ha h =>
    subst hts
    refine .accepted (w ++ w') rest (g a) (List.append_assoc w w' rest).symm (htakes _ _ _ ha) ?_
    intro rest' ending' hsim
    rw [List.append_assoc]
    exact hrun _ _ _ (hsim.append w') (h rest' ending' hsim)
  | refused w' rest cause hts hw hc h =>
    subst hts
    refine .refused (w ++ w') rest cause (List.append_assoc w w' rest).symm (hstarts _ hw) hc ?_
    intro rest' ending' hsim
    rw [List.append_assoc]
    exact hrun _ _ _ (hsim.append w') (h rest' ending' hsim)
  | tooDeep fault hc h => exact .tooDeep fault hc (hrun _ _ _ (.refl rest ending) h)

def Step (Tree : List Token → α → Prop) (Last : List Token → Prop) (taken rest : List Token) :
    Option α → Prop
  | none => taken = [] ∧ Last rest
  | some a => Tree taken a

variable {σ : Type} [TokenSource σ] {step : Building σ (Option α)}
  {Tree : List Token → α → Prop} {Trees : List Token → List α → Prop} {Last : List Token → Prop}

lemma outcome_many (hstep : ∀ ts, Outcome (Runs step) (Step Tree Last) Starts ts ending)
    (hone : ∀ w, Starts w → Starts' w) (hnil : Trees [] []) (hpos : ∀ w a, Tree w a → w ≠ [])
    (hcons : ∀ w w' a as, Tree w a → Trees w' as → Trees (w ++ w') (a :: as))
    (hstarts : ∀ w w' a, Tree w a → Starts' w' → Starts' (w ++ w')) (ts : List Token) :
    Outcome (RunsMany step) (fun w rest as => Trees w as ∧ Last rest) Starts' ts ending := by
  induction hn : ts.length using Nat.strong_induction_on generalizing ts with
  | _ n ih =>
    cases hstep ts with
    | accepted w rest a hts ha h =>
      subst hts
      cases a with
      | none =>
        obtain ⟨rfl, hlast⟩ := ha
        exact .accepted [] rest [] rfl ⟨hnil, hlast⟩ fun rest' ending' hsim =>
          .nil (h rest' ending' hsim)
      | some a =>
        have hlt (us : List Token) : us.length < (w ++ us).length := by
          have := List.length_pos_iff.mpr (hpos w a ha)
          simp only [List.length_append]
          omega
        refine (ih rest.length (hn ▸ hlt rest) rest rfl).extend w (a :: ·) ?_ ?_ ?_
        · intro rest' ending' o hsim hmore
          exact .cons (h rest' ending' hsim) (hlt rest') hmore
        · intro w' rest' as has
          exact ⟨hcons w w' a as ha has.1, has.2⟩
        · intro w' hw'
          exact hstarts w w' a ha hw'
    | refused w rest cause hts hw hc h =>
      exact .refused w rest cause hts (hone w hw) hc fun rest' ending' hsim =>
        .error (h rest' ending' hsim)
    | tooDeep fault hc h => exact .tooDeep fault hc (.error h)

end Outcomes

lemma viable_of_tree {α : Type} {Tree : List Token → α → Prop} {ts : List Token} {a : α}
    (h : Tree ts a) : Viable Tree ts :=
  ⟨[], a, by simp, by simpa using h⟩

lemma Viable.append {α : Type} {Tree : List Token → α → Prop} {Trees : List Token → List α → Prop}
    {w w' : List Token} {a : α} (hw : Tree w a) (hw' : Viable Trees w')
    (hcons : ∀ w w' a as, Tree w a → Trees w' as → Trees (w ++ w') (a :: as)) :
    Viable Trees (w ++ w') := by
  obtain ⟨us, as, hus, has⟩ := hw'
  refine ⟨us, a :: as, hus, ?_⟩
  rw [List.append_assoc]
  exact hcons w (w' ++ us) a as hw has

lemma Viable.close {α β : Type} {Tree : List Token → α → Prop} {Tree' : List Token → β → Prop}
    {w w' : List Token} (h : Viable Tree w) (u : Token) (hu : u.word ∈ closers)
    (hclose : ∀ us a, Tree (w ++ us) a → ∃ b, Tree' (w' ++ (us ++ [u])) b) : Viable Tree' w' := by
  obtain ⟨us, a, hus, ha⟩ := h
  obtain ⟨b, hb⟩ := hclose us a ha
  refine ⟨us ++ [u], b, ?_, hb⟩
  exact List.forall_mem_append.mpr ⟨hus, by simpa using hu⟩

section Attributes

variable {σ : Type} [TokenSource σ] {n : Token}

lemma outcome_tagAttribute?_name (hn : n.kind = .name) (ts : List Token) (ending : Ending) :
    Outcome (Runs (tagAttribute? : Building σ _))
      (Step AttributeTree fun rest => Ahead (· ≠ .name) rest ending) (Viable AttributeTrees)
      (n :: ts) ending := by
  have hbare : AttributeTree [n] ⟨n.lexeme, none, n.span⟩ := .bare hn
  rcases ahead_cases .equal ts ending with ⟨q, ts, rfl, hq⟩ | hts | ⟨fault, rfl, rfl⟩
  · by_cases hv : ∃ v us, ts = v :: us ∧ v.kind = .string
    · obtain ⟨v, us, rfl, hv⟩ := hv
      refine .accepted [n, q, v] us (some _) rfl (.valued hn hq hv) ?_
      intro rest' ending' _
      exact runs_tagAttribute?_some hn (runs_tagAttribute_valued hn hq hv)
    · refine .refused [n, q] ts (.unexpectedToken "Expected string value".toList) rfl ?_ nofun ?_
      · let v : Token := ⟨.string, ['"', '"'], {}⟩
        exact ⟨[v], [⟨n.lexeme, some v.lexeme, n.span⟩], by simp [v, closers, Token.word],
          (AttributeTree.valued hn hq rfl).single⟩
      · intro rest' ending' hsim
        have hts : ∀ t ∈ ts.head?, t.kind ≠ .string := by
          intro t ht htk
          obtain ⟨us, rfl⟩ := List.head?_eq_some_iff.mp ht
          exact hv ⟨t, us, rfl, htk⟩
        exact runs_tagAttribute?_some hn
          (runs_tagAttribute_unvalued hn hq (hsim.head_ne rfl hts) ending')
  · refine .accepted [n] ts (some _) rfl hbare ?_
    intro rest' ending' hsim
    exact runs_tagAttribute?_some hn (runs_tagAttribute_bare hn (hsim.ahead_ne rfl hts))
  · refine .refused [n] [] .expectedElement rfl (viable_of_tree hbare.single) nofun ?_
    intro rest' ending' hsim
    cases hsim
    exact runs_tagAttribute?_some hn (runs_tagAttribute_fault hn fault)

lemma outcome_tagAttribute? (ts : List Token) (ending : Ending) :
    Outcome (Runs (tagAttribute? : Building σ _))
      (Step AttributeTree fun rest => Ahead (· ≠ .name) rest ending) (Viable AttributeTrees)
      ts ending := by
  rcases ahead_cases .name ts ending with ⟨n, ts, rfl, hn⟩ | hts | ⟨fault, rfl, rfl⟩
  · exact outcome_tagAttribute?_name hn ts ending
  · refine .accepted [] ts none rfl ⟨rfl, hts⟩ ?_
    intro rest' ending' hsim
    exact runs_tagAttribute?_none (hsim.ahead_ne rfl hts)
  · refine .refused [] [] .expectedElement rfl (viable_of_tree .nil) nofun ?_
    intro rest' ending' hsim
    cases hsim
    exact runs_tagAttribute?_fault fault

lemma outcome_attributes (ts : List Token) (ending : Ending) :
    Outcome (RunsMany (tagAttribute? : Building σ _))
      (fun w rest as => AttributeTrees w as ∧ Ahead (· ≠ .name) rest ending)
      (Viable AttributeTrees) ts ending := by
  refine outcome_many (fun ts => outcome_tagAttribute? ts ending) (fun _ h => h) .nil ?_ ?_ ?_ ts
  · intro w a hw
    exact List.length_pos_iff.mp hw.length_pos
  · exact fun _ _ _ _ => .cons
  · intro w w' a hw hw'
    exact hw'.append hw fun _ _ _ _ => .cons

end Attributes

section Elements

variable {σ : Type} [TokenSource σ] {X : Building σ (Option (Element Span))} {limit : Nat}
  {ts : List Token} {ending : Ending}

def Unembedded (ts : List Token) : Prop :=
  ∀ t ∈ ts, t.kind.isEmbedded = false

/-- Embedded blocks add one level that the limit does not count. -/
def blockLevels (ts : List Token) : Nat :=
  if ts.any (·.kind.isEmbedded) then 1 else 0

lemma blockLevels_le_one (ts : List Token) : blockLevels ts ≤ 1 := by
  rw [blockLevels]
  split <;> omega

lemma Unembedded.blockLevels_eq_zero (h : Unembedded ts) : blockLevels ts = 0 := by
  have hnone : ts.any (·.kind.isEmbedded) = false := by
    simpa [Unembedded] using h
  rw [blockLevels, hnone]
  rfl

lemma blockLevels_mono {us : List Token} (h : ts ⊆ us) : blockLevels ts ≤ blockLevels us := by
  by_cases hts : ts.any (·.kind.isEmbedded)
  · obtain ⟨t, ht, hkind⟩ := List.any_eq_true.mp hts
    have hus : us.any (·.kind.isEmbedded) := List.any_eq_true.mpr ⟨t, h ht, hkind⟩
    rw [blockLevels, blockLevels, if_pos hts, if_pos hus]
  · rw [blockLevels, if_neg hts]
    exact Nat.zero_le _

def ElementWithin (limit : Nat) (ts : List Token) (e : Element Span) : Prop :=
  ElementTree ts e ∧ e.depth < limit + blockLevels ts

def BodyWithin (limit : Nat) (ts : List Token) (es : List (Element Span)) : Prop :=
  BodyTree ts es ∧ ∀ e ∈ es, e.depth < limit + blockLevels ts

def ElementsWithin (limit : Nat) (ts : List Token) (es : List (Element Span)) : Prop :=
  ElementTrees ts es ∧ ∀ e ∈ es, e.depth < limit + blockLevels ts

lemma ElementsWithin.nil : ElementsWithin limit [] [] :=
  ⟨.nil, by simp⟩

lemma ElementsWithin.cons {w w' : List Token} {e : Element Span} {es : List (Element Span)}
    (h : ElementWithin limit w e) (h' : ElementsWithin limit w' es) :
    ElementsWithin limit (w ++ w') (e :: es) := by
  have hw := blockLevels_mono (List.subset_append_left w w')
  have hw' := blockLevels_mono (List.subset_append_right w w')
  refine ⟨.cons h.1 h'.1, ?_⟩
  intro f hf
  rcases List.mem_cons.mp hf with rfl | hf
  · exact h.2.trans_le (Nat.add_le_add_left hw limit)
  · exact (h'.2 f hf).trans_le (Nat.add_le_add_left hw' limit)

lemma depth_tag_lt {es : List (Element Span)} (h : ∀ e ∈ es, e.depth < limit) (name : Text)
    (attributes : List (Attribute Span)) (span : Span) :
    (Element.tag name attributes es span).depth < limit + 1 := by
  cases es with
  | nil => simp [Element.depth]
  | cons e es =>
    have hlimit : 0 < limit := Nat.zero_lt_of_lt (h e (by simp))
    have hd := (maxDepth_lt_iff hlimit).mpr h
    simp only [Element.depth, List.isEmpty_cons, Bool.false_eq_true, if_false]
    omega

lemma viable_string : Viable ElementTree [] :=
  ⟨[⟨.string, ['"', '"'], {}⟩], _, by simp [closers, Token.word], .leaf (.string rfl)⟩

lemma viable_semicolon : Viable BodyTree [] :=
  ⟨[⟨.semicolon, [';'], {}⟩], _, by simp [closers, Token.word], .semicolon rfl⟩

lemma outcome_required {Last : List Token → Prop}
    (h : Outcome (Runs X) (Step (ElementWithin limit) Last) (Viable ElementTree) ts ending) :
    Outcome (Runs (required X)) (fun w _ e => ElementWithin limit w e) (Viable ElementTree) ts
      ending := by
  cases h with
  | accepted w rest a hts ha h =>
    cases a with
    | some e =>
      exact .accepted w rest e hts ha fun rest' ending' hsim =>
        runs_required_some (h rest' ending' hsim)
    | none =>
      obtain ⟨rfl, _⟩ := ha
      exact .refused [] rest .expectedElement hts viable_string nofun
        fun rest' ending' hsim => runs_required_none (h rest' ending' hsim)
  | refused w rest cause hts hw hc h =>
    exact .refused w rest cause hts hw hc fun rest' ending' hsim =>
      (h rest' ending' hsim).bind_error
  | tooDeep fault hc h => exact .tooDeep fault hc h.bind_error

def Closed (ts : List Token) : Prop :=
  ∃ r us, ts = r :: us ∧ r.kind = .rightBrace

lemma outcome_child? {Last : List Token → Prop}
    (h : Outcome (Runs X) (Step (ElementWithin limit) Last) (Viable ElementTree) ts ending) :
    Outcome (Runs (child? X)) (Step (ElementWithin limit) Closed) (Viable ElementTrees) ts
      ending := by
  rcases ahead_cases .rightBrace ts ending with ⟨r, us, rfl, hr⟩ | hts | ⟨fault, rfl, rfl⟩
  · refine .accepted [] (r :: us) none rfl ⟨rfl, r, us, rfl, hr⟩ ?_
    intro rest' ending' hsim
    obtain ⟨r', us', rfl, hr'⟩ := hsim.exists_kind_eq (by simp [hr])
    exact runs_child?_none (hr'.trans hr)
  · refine (outcome_required h).extend [] some ?_ ?_ ?_
    · intro rest' ending' o hsim ho
      exact runs_child?_some (hsim.ahead_ne rfl hts) ho
    · exact fun w' rest' e he => he
    · rintro w' ⟨us, e, hus, he⟩
      exact ⟨us, [e], hus, he.single⟩
  · refine .refused [] [] .expectedElement rfl (viable_of_tree .nil) nofun ?_
    intro rest' ending' hsim
    cases hsim
    exact runs_child?_fault fault

lemma outcome_children {Last : List Token → Prop}
    (h : ∀ ts, Outcome (Runs X) (Step (ElementWithin limit) Last) (Viable ElementTree) ts ending)
    (ts : List Token) :
    Outcome (RunsMany (child? X)) (fun w rest es => ElementsWithin limit w es ∧ Closed rest)
      (Viable ElementTrees) ts ending := by
  refine outcome_many (fun ts => outcome_child? (h ts)) (fun _ h => h) .nil ?_ ?_ ?_ ts
  · exact fun w e he => he.1.ne_nil
  · exact fun _ _ _ _ => .cons
  · intro w w' e he hw'
    exact hw'.append he.1 fun _ _ _ _ => .cons

lemma outcome_body_braces {Last : List Token → Prop} {l : Token}
    (h : ∀ ts, Outcome (Runs X) (Step (ElementWithin limit) Last) (Viable ElementTree) ts ending)
    (hl : l.kind = .leftBrace) (ts : List Token) :
    Outcome (Runs (body X)) (fun w _ es => BodyWithin limit w es) (Viable BodyTree) (l :: ts)
      ending := by
  cases outcome_children h ts with
  | accepted w rest es hts hes hrun =>
    obtain ⟨⟨hes, hd⟩, r, us, rfl, hr⟩ := hes
    have hbody : BodyTree (l :: w ++ [r]) es := .braces hl hes hr
    have hlevels : blockLevels w ≤ blockLevels (l :: w ++ [r]) :=
      blockLevels_mono fun t ht => by simp [ht]
    refine .accepted (l :: w ++ [r]) us es (by simp [hts]) ⟨hbody, ?_⟩ ?_
    · intro e he
      exact (hd e he).trans_le (Nat.add_le_add_left hlevels limit)
    · intro rest' ending' _
      have hchildren := hrun (r :: rest') ending' (.kind rfl)
      simpa using runs_body_braces hl hchildren
  | refused w rest cause hts hw hc hrun =>
    refine .refused (l :: w) rest cause (by simp [hts]) ?_ hc fun rest' ending' hsim =>
      runs_body_braces_error hl (hrun rest' ending' hsim)
    let r : Token := ⟨.rightBrace, [Token.closeBrace], {}⟩
    refine hw.close r (by simp [r, closers, Token.word]) fun us es hes => ⟨es, ?_⟩
    have hbody : BodyTree (l :: (w ++ us) ++ [r]) es := .braces hl hes rfl
    simpa using hbody
  | tooDeep fault hc hrun => exact .tooDeep fault hc (runs_body_braces_error hl hrun)

lemma leaf_of_ahead {w rest : List Token} {e : Element Span} (h : ElementTree w e)
    (hw : Ahead (· ≠ .name) (w ++ rest) ending) : ∃ t, w = [t] ∧ LeafTree t e := by
  cases h with
  | leaf h => exact ⟨_, rfl, h⟩
  | tag hn _ _ => exact (hw hn).elim

lemma viable_body {w rest : List Token} (h : Viable ElementTree w)
    (hw : Ahead (· ≠ .name) (w ++ rest) ending) : Viable BodyTree w := by
  cases w with
  | nil => exact viable_semicolon
  | cons t w =>
    obtain ⟨us, e, hus, he⟩ := h
    have hw' : Ahead (· ≠ .name) (t :: w ++ us ++ []) ending := hw
    obtain ⟨t', ht, hleaf⟩ := leaf_of_ahead he hw'
    exact ⟨us, [e], hus, ht ▸ .leaf hleaf⟩

lemma outcome_body_single {Last : List Token → Prop}
    (h : Outcome (Runs X) (Step (ElementWithin limit) Last) (Viable ElementTree) ts ending)
    (hn : Ahead (· ≠ .name) ts ending) (hs : Ahead (· ≠ .semicolon) ts ending)
    (hl : Ahead (· ≠ .leftBrace) ts ending) :
    Outcome (Runs (body X)) (fun w _ es => BodyWithin limit w es) (Viable BodyTree) ts ending := by
  cases outcome_required h with
  | accepted w rest e hts he hrun =>
    subst hts
    -- no name comes next, so the one element is a leaf
    obtain ⟨t, rfl, ht⟩ := leaf_of_ahead he.1 hn
    have hd (w : List Token) (hw : t ∈ w) : ∀ f ∈ [e], f.depth < limit + blockLevels w := by
      have hlevels : blockLevels [t] ≤ blockLevels w := blockLevels_mono (by simpa using hw)
      intro f hf
      obtain rfl := List.mem_singleton.mp hf
      exact he.2.trans_le (Nat.add_le_add_left hlevels limit)
    rcases ahead_cases .semicolon rest ending with ⟨s, us, rfl, hsemi⟩ | hrest | ⟨fault, rfl, rfl⟩
    · refine .accepted [t, s] us [e] rfl ⟨.leafSemicolon ht hsemi, hd _ (by simp)⟩ ?_
      intro rest' ending' _
      exact runs_body_single_semicolon hs hl (hrun (s :: rest') ending' (.kind rfl)) hsemi
    · refine .accepted [t] rest [e] rfl ⟨.leaf ht, hd _ (by simp)⟩ ?_
      intro rest' ending' hsim
      exact runs_body_single hs hl (hrun rest' ending' hsim) (hsim.ahead_ne rfl hrest)
    · refine .refused [t] [] .expectedElement rfl (viable_of_tree (.leaf ht)) nofun ?_
      intro rest' ending' hsim
      cases hsim
      exact runs_body_single_fault hs hl (hrun [] _ (.ended _))
  | refused w rest cause hts hw hc hrun =>
    subst hts
    refine .refused w rest cause rfl (viable_body hw hn) hc ?_
    intro rest' ending' hsim
    exact runs_body_error ((hsim.append w).ahead_ne rfl hs) ((hsim.append w).ahead_ne rfl hl)
      (hrun rest' ending' hsim)
  | tooDeep fault hc hrun => exact .tooDeep fault hc (runs_body_error hs hl hrun)

lemma outcome_body {Last : List Token → Prop}
    (h : ∀ ts, Outcome (Runs X) (Step (ElementWithin limit) Last) (Viable ElementTree) ts ending)
    (hn : Ahead (· ≠ .name) ts ending) :
    Outcome (Runs (body X)) (fun w _ es => BodyWithin limit w es) (Viable BodyTree) ts ending := by
  rcases ahead_cases .semicolon ts ending with ⟨s, us, rfl, hs⟩ | hs | ⟨fault, rfl, rfl⟩
  · refine .accepted [s] us [] rfl ⟨.semicolon hs, by simp⟩ ?_
    intro rest' ending' _
    exact runs_body_semicolon hs rest'
  · rcases ahead_cases .leftBrace ts ending with ⟨l, us, rfl, hl⟩ | hl | ⟨fault, rfl, rfl⟩
    · exact outcome_body_braces h hl us
    · exact outcome_body_single (h ts) hn hs hl
    · exact hs.elim
  · refine .refused [] [] .expectedElement rfl viable_semicolon nofun ?_
    intro rest' ending' hsim
    cases hsim
    exact runs_body_fault fault

abbrev Elementless (ts : List Token) (ending : Ending) : Prop :=
  Ahead (fun k => startsElement k = false) ts ending

lemma outcome_element_zero (ts : List Token) (ending : Ending) :
    Outcome (Runs (element 0 : Building σ _)) (Step (ElementWithin 0) (Elementless · ending))
      (Viable ElementTree) ts ending := by
  have hrun := runs_element_zero (σ := σ) ts ending
  rcases ts with _ | ⟨t, ts⟩
  · cases ending with
    | ok span => exact .tooDeep _ rfl hrun
    | error fault =>
      refine .refused [] [] .expectedElement rfl viable_string nofun ?_
      intro rest' ending' hsim
      cases hsim
      exact hrun
  · exact .tooDeep _ rfl hrun

lemma outcome_element_tag {n : Token}
    (ih : ∀ ts, Outcome (Runs (element limit : Building σ _))
      (Step (ElementWithin limit) (Elementless · ending)) (Viable ElementTree) ts ending)
    (hn : n.kind = .name) (ts : List Token) :
    Outcome (Runs (element (limit + 1) : Building σ _))
      (Step (ElementWithin (limit + 1)) (Elementless · ending)) (Viable ElementTree) (n :: ts) ending := by
  cases outcome_attributes (σ := σ) ts ending with
  | accepted w rest as hts has hrun =>
    subst hts
    obtain ⟨has, hrest⟩ := has
    refine (outcome_body ih hrest).extend (n :: w) (fun es => some (.tag n.lexeme as es n.span))
      ?_ ?_ ?_
    · intro rest' ending' o hsim ho
      have htag := runs_element_tag hn (runs_tag hn (hrun rest' ending' hsim) ho)
      cases o with
      | ok p => exact htag
      | error fault => exact htag
    · intro w' rest' es hes
      have hlevels := blockLevels_mono (List.subset_append_right (n :: w) w')
      have hdepth := depth_tag_lt hes.2 n.lexeme as n.span
      refine ⟨.tag hn has hes.1, ?_⟩
      omega
    · rintro w' ⟨us, es, hus, hes⟩
      have htag : ElementTree (n :: w ++ (w' ++ us)) _ := .tag hn has hes
      exact ⟨us, _, hus, by simpa using htag⟩
  | refused w rest cause hts hw hc hrun =>
    subst hts
    refine .refused (n :: w) rest cause rfl ?_ hc fun rest' ending' hsim =>
      runs_element_tag hn (runs_tag_error hn (hrun rest' ending' hsim))
    let s : Token := ⟨.semicolon, [';'], {}⟩
    refine hw.close s (by simp [s, closers, Token.word]) fun us as has => ?_
    have htag : ElementTree (n :: (w ++ us) ++ [s]) _ := .tag hn has (.semicolon rfl)
    exact ⟨_, by simpa using htag⟩
  | tooDeep fault hc hrun =>
    exact .tooDeep fault hc (runs_element_tag hn (runs_tag_error hn hrun))

lemma exists_leafTree {t : Token} (hs : startsElement t.kind = true) (hn : t.kind ≠ .name) :
    ∃ e, LeafTree t e := by
  cases hk : t.kind with
  | name => exact (hn hk).elim
  | string => exact ⟨_, .string hk⟩
  | html => exact ⟨_, .html hk⟩
  | script => exact ⟨_, .script hk⟩
  | style => exact ⟨_, .style hk⟩
  | equal | leftBrace | rightBrace | semicolon => simp [hk, startsElement] at hs

lemma LeafTree.depth_le_blockLevels {t : Token} {e : Element Span} (h : LeafTree t e) :
    e.depth ≤ blockLevels [t] := by
  have hdepth := h.depth_le
  cases h with
  | string h | html h => exact Nat.zero_le _
  | script h | style h => simpa [blockLevels, h, Token.Kind.isEmbedded] using hdepth

lemma outcome_element (limit : Nat) (ts : List Token) (ending : Ending) :
    Outcome (Runs (element limit : Building σ _)) (Step (ElementWithin limit) (Elementless · ending))
      (Viable ElementTree) ts ending := by
  induction limit generalizing ts with
  | zero => exact outcome_element_zero ts ending
  | succ limit ih =>
    rcases ts with _ | ⟨t, ts⟩
    · cases ending with
      | ok span =>
        have hend : Elementless [] (.ok span) := trivial
        refine .accepted [] [] none rfl ⟨rfl, hend⟩ ?_
        intro rest' ending' hsim
        cases hsim
        exact runs_element_none hend
      | error fault =>
        refine .refused [] [] .expectedElement rfl viable_string nofun ?_
        intro rest' ending' hsim
        cases hsim
        exact runs_element_fault fault
    · by_cases hn : t.kind = .name
      · exact outcome_element_tag ih hn ts
      by_cases hs : startsElement t.kind = true
      · obtain ⟨e, he⟩ := exists_leafTree hs hn
        refine .accepted [t] ts (some e) rfl ⟨.leaf he, ?_⟩ fun rest' ending' _ =>
          runs_element_leaf he limit
        have hd := he.depth_le_blockLevels
        omega
      · have hs : startsElement t.kind = false := by simpa using hs
        refine .accepted [] (t :: ts) none rfl ⟨rfl, hs⟩ ?_
        intro rest' ending' hsim
        obtain ⟨t', us, rfl, ht'⟩ := hsim.exists_kind_eq hn
        have hs' : Elementless (t' :: us) ending' := by simpa only [Ahead, ht'] using hs
        exact runs_element_none hs'

lemma outcome_elements (limit : Nat) (ts : List Token) (ending : Ending) :
    Outcome (RunsMany (element limit : Building σ _))
      (fun w rest es => ElementsWithin limit w es ∧ Elementless rest ending)
      (Viable ElementTrees) ts ending := by
  refine outcome_many (fun ts => outcome_element limit ts ending) ?_ .nil ?_ ?_ ?_ ts
  · rintro w ⟨us, e, hus, he⟩
    exact ⟨us, [e], hus, he.single⟩
  · exact fun w e he => he.1.ne_nil
  · exact fun _ _ _ _ => .cons
  · intro w w' e he hw'
    exact hw'.append he.1 fun _ _ _ _ => .cons

theorem outcome_document (limit : Nat) (ts : List Token) (ending : Ending) :
    Outcome (Runs (document limit : Building σ _))
      (fun w rest es => ElementsWithin limit w es ∧ rest = [] ∧ ∃ span, ending = .ok span)
      (Viable ElementTrees) ts ending := by
  cases outcome_elements (σ := σ) limit ts ending with
  | accepted w rest es hts hes hrun =>
    cases rest with
    | nil =>
      cases ending with
      | ok span =>
        refine .accepted w [] es hts ⟨hes.1, rfl, span, rfl⟩ ?_
        intro rest' ending' hsim
        cases hsim
        exact runs_document (hrun [] _ (.ended _))
      | error fault => exact hes.2.elim
    | cons t us =>
      refine .refused w (t :: us) .expectedTag hts (viable_of_tree hes.1.1) nofun ?_
      intro rest' ending' hsim
      have hmany := hrun rest' ending' hsim
      cases hsim with
      | kind | keyword => exact runs_document_unfinished hmany
  | refused w rest cause hts hw hc hrun =>
    exact .refused w rest cause hts hw hc fun rest' ending' hsim =>
      runs_document_error (hrun rest' ending' hsim)
  | tooDeep fault hc hrun => exact .tooDeep fault hc (runs_document_error hrun)

end Elements

end BraceMarkup.Grammar
