import BraceMarkup.Proofs.Element.OnDemand
import BraceMarkup.Proofs.Token.Insertion

namespace BraceMarkup

open Token (word)

namespace Feed

structure SameWords (f g : Feed Recording) : Prop where
  tokens_eq : g.source.tokens.map word = f.source.tokens.map word
  slot_eq : g.slot.map word = f.slot.map word
  ended_eq : g.ended = f.ended
  bound_eq : g.bound = f.bound
  ending_ok : ∃ p q, f.source.ending = .ok p ∧ g.source.ending = .ok q

variable {α β γ δ : Type}

inductive Matches (view : α → γ) :
    EStateM.Result Fault (Feed Recording) α → EStateM.Result Fault (Feed Recording) α → Prop
  | ok {a b : α} {f g : Feed Recording} : view b = view a → SameWords f g →
      Matches view (.ok a f) (.ok b g)
  | error {e e' : Fault} {f g : Feed Recording} : e'.cause = e.cause →
      Matches view (.error e f) (.error e' g)

def Parallel (view : α → γ) (x y : Building Recording α) : Prop :=
  ∀ f g, SameWords f g → Matches view (x f) (y g)

namespace Parallel

variable {view : α → γ} {view' : β → δ} {x y : Building Recording α}

lemma pure {a b : α} (h : view b = view a) : Parallel view (Pure.pure a) (Pure.pure b) :=
  fun _ _ hfg => .ok h hfg

lemma bind {k l : α → Building Recording β} (hx : Parallel view x y)
    (hk : ∀ a b, view b = view a → Parallel view' (k a) (l b)) :
    Parallel view' (x >>= k) (y >>= l) := by
  intro f g hfg
  generalize hxf : x f = r
  generalize hyg : y g = r'
  have hm : Matches view r r' := hxf ▸ hyg ▸ hx f g hfg
  cases hm with
  | ok hab hfg' =>
    rw [bind_of_ok hxf, bind_of_ok hyg]
    exact hk _ _ hab _ _ hfg'
  | error hc =>
    rw [bind_of_error hxf, bind_of_error hyg]
    exact .error hc

lemma bind_option {x y : Building Recording (Option α)} {k l : Option α → Building Recording β}
    (hx : Parallel (Option.map view) x y) (hnone : Parallel view' (k none) (l none))
    (hsome : ∀ a b, view b = view a → Parallel view' (k (some a)) (l (some b))) :
    Parallel view' (x >>= k) (y >>= l) := by
  refine hx.bind fun a b hab => ?_
  cases a with
  | none =>
    obtain rfl : b = none := by simpa using hab
    exact hnone
  | some a =>
    obtain ⟨b, rfl, hba⟩ := Option.map_eq_some_iff.mp hab
    exact hsome a b hba

lemma bind_bool {x y : Building Recording Bool} {k l : Bool → Building Recording β}
    (hx : Parallel id x y) (htrue : Parallel view' (k true) (l true))
    (hfalse : Parallel view' (k false) (l false)) : Parallel view' (x >>= k) (y >>= l) := by
  refine hx.bind fun a b hab => ?_
  obtain rfl : b = a := hab
  cases b with
  | true => exact htrue
  | false => exact hfalse

lemma discard (hx : Parallel view x y) : Parallel id (discard x) (discard y) :=
  hx.bind fun _ _ _ => pure rfl

lemma repeatUpTo {x y : Building Recording (Option α)} (h : Parallel (Option.map view) x y)
    (n : Nat) : Parallel (List.map view) (Feed.repeatUpTo x n) (Feed.repeatUpTo y n) := by
  induction n with
  | zero => exact pure rfl
  | succ n ih =>
    refine h.bind_option (pure rfl) fun a b hab => ?_
    exact ih.bind fun as bs hs => pure (by simp [hab, hs])

lemma many {x y : Building Recording (Option α)} (h : Parallel (Option.map view) x y) :
    Parallel (List.map view) (Feed.many x) (Feed.many y) := by
  intro f g hfg
  have hmore := h.repeatUpTo f.bound f g hfg
  change Matches _ (Feed.repeatUpTo x f.bound f) (Feed.repeatUpTo y g.bound g)
  rwa [hfg.bound_eq]

end Parallel

lemma parallel_peek : Parallel (Option.map word) peek peek := by
  intro f g hfg
  obtain ⟨p, q, hp, hq⟩ := hfg.ending_ok
  obtain ⟨⟨ts, e⟩, slot, ended, bound⟩ := f
  obtain ⟨⟨us, e'⟩, slot', ended', bound'⟩ := g
  obtain rfl : ended' = ended := hfg.ended_eq
  obtain rfl : e = .ok p := hp
  obtain rfl : e' = .ok q := hq
  have hslot : slot'.map word = slot.map word := hfg.slot_eq
  cases slot with
  | some t =>
    obtain ⟨u, rfl, hut⟩ := Option.map_eq_some_iff.mp hslot
    exact .ok (congrArg some hut) hfg
  | none =>
    obtain rfl : slot' = none := by simpa using hslot
    cases ended' with
    | true => exact .ok rfl hfg
    | false =>
      have htokens : us.map word = ts.map word := hfg.tokens_eq
      cases ts with
      | nil =>
        obtain rfl := List.map_eq_nil_iff.mp htokens
        exact .ok rfl ⟨rfl, rfl, rfl, hfg.bound_eq, p, q, rfl, rfl⟩
      | cons t ts =>
        obtain ⟨u, us, rfl, hut, hus⟩ := List.map_eq_cons_iff.mp htokens
        exact .ok (congrArg some hut) ⟨hus, congrArg some hut, rfl, hfg.bound_eq, p, q, rfl, rfl⟩

lemma parallel_take : Parallel (Option.map word) take take := by
  refine parallel_peek.bind fun t u htu => ?_
  intro f g hfg
  exact .ok htu ⟨hfg.tokens_eq, rfl, hfg.ended_eq, hfg.bound_eq, hfg.ending_ok⟩

lemma parallel_isNext (kind : Token.Kind) : Parallel id (isNext kind) (isNext kind) := by
  refine parallel_peek.bind_option (.pure rfl) fun t u hut => ?_
  have hkind : u.kind = t.kind := congrArg Prod.fst hut
  exact .pure (by rw [hkind])

lemma parallel_reject {view : α → γ} (cause : Fault.Cause) :
    Parallel view (reject cause) (reject cause) := by
  have hspan : Parallel (fun _ => ()) nextSpan nextSpan := by
    apply parallel_peek.bind_option
    · exact fun f g hfg => .ok rfl hfg
    · exact fun t u _ => .pure rfl
  apply hspan.bind
  exact fun p q _ f g _ => .error rfl

lemma parallel_expect (kind : Token.Kind) (needed : Text) :
    Parallel word (expect kind needed) (expect kind needed) := by
  refine parallel_peek.bind_option (parallel_reject _) fun t u hut => ?_
  have hkind : u.kind = t.kind := congrArg Prod.fst hut
  dsimp only
  rw [hkind]
  split
  · exact parallel_take.discard.bind fun _ _ _ => .pure hut
  · exact parallel_reject _

end Feed

open Feed Element

lemma Element.bareAll_eq_map {ℓ : Type} (es : List (Element ℓ)) : bareAll es = es.map bare := by
  induction es with
  | nil => rfl
  | cons e es ih => rw [bareAll, ih, List.map_cons]

namespace Grammar

lemma parallel_tagAttribute : Parallel Attribute.bare tagAttribute tagAttribute := by
  refine (parallel_expect _ _).bind fun n m hnm => ?_
  obtain ⟨_, hname⟩ := Prod.mk.inj hnm
  apply (parallel_isNext _).bind_bool
  · refine parallel_take.discard.bind fun _ _ _ => (parallel_expect _ _).bind fun v u huv => ?_
    obtain ⟨_, hvalue⟩ := Prod.mk.inj huv
    exact .pure (by simp [Attribute.bare, hname, hvalue])
  · exact .pure (by simp [Attribute.bare, hname])

lemma parallel_tagAttribute? :
    Parallel (Option.map Attribute.bare) tagAttribute? tagAttribute? := by
  apply (parallel_isNext _).bind_bool
  · exact parallel_tagAttribute.bind fun a b hab => .pure (congrArg some hab)
  · exact .pure rfl

variable {X Y : Building Recording (Option (Element Span))}
  (h : Parallel (Option.map Element.bare) X Y)
include h

lemma parallel_required : Parallel Element.bare (required X) (required Y) :=
  h.bind_option (parallel_reject _) fun _ _ hef => .pure hef

lemma parallel_child? : Parallel (Option.map Element.bare) (child? X) (child? Y) := by
  apply (parallel_isNext _).bind_bool
  · exact .pure rfl
  · exact (parallel_required h).bind fun e f hef => .pure (congrArg some hef)

lemma parallel_body : Parallel (List.map Element.bare) (body X) (body Y) := by
  apply (parallel_isNext _).bind_bool
  · exact parallel_take.discard.bind fun _ _ _ => .pure rfl
  apply (parallel_isNext _).bind_bool
  · refine parallel_take.discard.bind fun _ _ _ => (parallel_child? h).many.bind fun es fs hef => ?_
    exact parallel_take.discard.bind fun _ _ _ => .pure hef
  · refine (parallel_required h).bind fun e f hef => ?_
    have hsingle : [f].map Element.bare = [e].map Element.bare := by simp [hef]
    apply (parallel_isNext _).bind_bool
    · exact parallel_take.discard.bind fun _ _ _ => .pure hsingle
    · exact .pure hsingle

lemma parallel_tag : Parallel Element.bare (tag X) (tag Y) := by
  refine (parallel_expect _ _).bind fun n m hnm => parallel_tagAttribute?.many.bind fun as bs hab => ?_
  obtain ⟨_, hname⟩ := Prod.mk.inj hnm
  refine (parallel_body h).bind fun es fs hef => .pure ?_
  rw [bare, bare, hname, hab, bareAll_eq_map, bareAll_eq_map, hef]

omit h

lemma parallel_element (limit : Nat) :
    Parallel (Option.map Element.bare) (element limit) (element limit) := by
  induction limit with
  | zero => exact parallel_reject _
  | succ limit ih =>
    refine parallel_peek.bind_option (.pure rfl) fun t u hut => ?_
    obtain ⟨hkind, hlexeme⟩ := Prod.mk.inj hut
    have hstep {e f : Element Span} (hef : f.bare = e.bare) : Parallel (Option.map Element.bare)
        (do discard take; return some e) (do discard take; return some f) :=
      parallel_take.discard.bind fun _ _ _ => .pure (congrArg some hef)
    dsimp only
    rw [hkind]
    cases t.kind with
    | name => exact (parallel_tag ih).bind fun e f hef => .pure (congrArg some hef)
    | string => exact hstep (by simp only [bare, hlexeme])
    | html => exact hstep (by simp only [bare, hlexeme])
    | script | style => exact hstep (bare_ofBlock hut)
    | equal | leftBrace | rightBrace | semicolon => exact .pure rfl

lemma parallel_document (limit : Nat) :
    Parallel (List.map Element.bare) (document limit) (document limit) := by
  refine (parallel_element limit).many.bind fun es fs hef => ?_
  exact parallel_peek.bind_option (.pure hef) fun _ _ _ => parallel_reject _

end Grammar

/-- The same tree, wherever its nodes stand, or a fault with the same cause. -/
def SameOutcome : Except Fault (List (Element Span)) → Except Fault (List (Element Span)) → Prop
  | .ok es, .ok fs => bareAll fs = bareAll es
  | .error e, .error e' => e'.cause = e.cause
  | _, _ => False

lemma sameOutcome_evaluate (limit : Nat) {ts us : List Token} (p q : Span)
    (h : us.map word = ts.map word) :
    SameOutcome (evaluate (Grammar.document limit) (⟨ts, .ok p⟩ : Recording))
      (evaluate (Grammar.document limit) (⟨us, .ok q⟩ : Recording)) := by
  have hlength : us.length = ts.length := by simpa using congrArg List.length h
  have hbound : us.length + 1 = ts.length + 1 := by rw [hlength]
  have hm := Grammar.parallel_document limit (ofSource ⟨ts, .ok p⟩) (ofSource ⟨us, .ok q⟩)
    ⟨h, rfl, rfl, hbound, p, q, rfl, rfl⟩
  generalize hx : Grammar.document limit (ofSource (⟨ts, .ok p⟩ : Recording)) = x at hm
  generalize hy : Grammar.document limit (ofSource (⟨us, .ok q⟩ : Recording)) = y at hm
  simp only [evaluate, hx, hy]
  cases hm with
  | ok hef => simpa only [SameOutcome, bareAll_eq_map] using hef
  | error hc => exact hc

lemma ofCursor_of_fault_eq_none {c : Cursor} (h : c.drain.fault = none) :
    Recording.ofCursor c = ⟨c.drain.tokens, .ok c.drain.cursor.span⟩ := by
  rw [Recording.ofCursor, h]

lemma sameOutcome_parseWithin (limit : Nat) {s s' : Text}
    (hs : (Cursor.ofText s).drain.fault = none) (hs' : (Cursor.ofText s').drain.fault = none)
    (h : (Cursor.ofText s').drain.tokens.map word = (Cursor.ofText s).drain.tokens.map word) :
    SameOutcome (parseWithin limit s) (parseWithin limit s') := by
  rw [parseWithin_eq_evaluate, parseWithin_eq_evaluate, ofCursor_of_fault_eq_none hs,
    ofCursor_of_fault_eq_none hs']
  exact sameOutcome_evaluate limit _ _ h

/-- Text that is skipped can be put before or behind any token of a text that is read without a
fault. The words stay the same, the tokens behind are moved by its length, and the text parses to
the same tree or fails with the same cause. -/
theorem parseWithin_insert_filler (s w : Text) (i : Nat)
    (hs : (Cursor.ofText s).drain.fault = none) (hi : Token.Edge (Cursor.ofText s).drain.tokens i)
    (hw : Token.Filler w) :
    (Cursor.ofText (s.take i ++ w ++ s.drop i)).drain.fault = none ∧
    (Cursor.ofText (s.take i ++ w ++ s.drop i)).drain.tokens.map word =
      (Cursor.ofText s).drain.tokens.map word ∧
    (Cursor.ofText (s.take i ++ w ++ s.drop i)).drain.tokens.map (fun t => t.span.idx) =
      (Cursor.ofText s).drain.tokens.map (fun t => Token.shifted i w.length t.span.idx) ∧
    ∀ limit, SameOutcome (parseWithin limit s)
      (parseWithin limit (s.take i ++ w ++ s.drop i)) := by
  obtain ⟨hfault, hwords, hidx⟩ := Cursor.drain_insert hs hi hw
  exact ⟨hfault, hwords, hidx, fun limit => sameOutcome_parseWithin limit hs hfault hwords⟩

theorem parseWithin_insert_filler_keyword :
    (Cursor.ofText "js \x7b 'a' \x7d".toList).drain.fault = none ∧
    Token.Edge (Cursor.ofText "js \x7b 'a' \x7d".toList).drain.tokens 2 ∧
    Token.Filler "/*\x7b*/\\\x7b//\n".toList ∧
    (Cursor.ofText "js/*\x7b*/\\\x7b//\n \x7b 'a' \x7d".toList).drain.tokens.map
      (fun t => t.span.idx) = [0, 13, 15, 19] ∧
    SameOutcome (parse "js \x7b 'a' \x7d".toList)
      (parse "js/*\x7b*/\\\x7b//\n \x7b 'a' \x7d".toList) := by
  have hs : (Cursor.ofText "js \x7b 'a' \x7d".toList).drain.fault = none := by decide +kernel
  have hi : Token.Edge (Cursor.ofText "js \x7b 'a' \x7d".toList).drain.tokens 2 := by
    rw [Token.Edge]
    decide +kernel
  have hw : Token.Filler "/*\x7b*/\\\x7b//\n".toList :=
    @Token.Filler.block ['\x7b'] _ (by decide) (@Token.Filler.escape '\x7b' _
      (@Token.Filler.line [] [] (by simp) .nil))
  obtain ⟨_, _, hidx, hparse⟩ := parseWithin_insert_filler _ _ _ hs hi hw
  have hmoved : (Cursor.ofText "js \x7b 'a' \x7d".toList).drain.tokens.map
      (fun t => Token.shifted 2 10 t.span.idx) = [0, 13, 15, 19] := by decide +kernel
  exact ⟨hs, hi, hw, hidx.trans hmoved, hparse nestingLimit⟩

end BraceMarkup
