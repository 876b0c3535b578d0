import BraceMarkup.Element.Grammar
import BraceMarkup.Proofs.Token.Supply

namespace BraceMarkup

open Feed

variable {σ α β : Type}

def Below (x y : Building σ α) : Prop :=
  ∀ f, (∃ fault g, x f = .error fault g ∧ fault.cause = .nestingTooDeep) ∨ x f = y f

namespace Below

lemma refl (x : Building σ α) : Below x x :=
  fun _ => .inr rfl

lemma bind {x y : Building σ α} {g h : α → Building σ β} (hx : Below x y)
    (hg : ∀ a, Below (g a) (h a)) : Below (x >>= g) (y >>= h) := by
  intro f
  rcases hx f with ⟨fault, f', hf, hc⟩ | hf
  · exact .inl ⟨fault, f', bind_of_error hf, hc⟩
  · cases hy : y f with
    | error fault f' =>
      right
      rw [bind_of_error (hf.trans hy), bind_of_error hy]
    | ok a f' =>
      rw [bind_of_ok (hf.trans hy), bind_of_ok hy]
      exact hg a f'

lemma repeatUpTo {x y : Building σ (Option α)} (h : Below x y) (n : Nat) :
    Below (Feed.repeatUpTo x n) (Feed.repeatUpTo y n) := by
  induction n with
  | zero => exact refl _
  | succ n ih =>
    apply h.bind
    intro a
    cases a with
    | none => exact refl _
    | some a => exact ih.bind fun _ => refl _

lemma many {x y : Building σ (Option α)} (h : Below x y) : Below (Feed.many x) (Feed.many y) :=
  (refl get).bind fun f => h.repeatUpTo f.bound

end Below

namespace Grammar

variable [TokenSource σ] {x y : Building σ (Option (Element Span))}

lemma below_required (h : Below x y) : Below (required x) (required y) := by
  apply h.bind
  intro e
  exact .refl _

lemma below_child? (h : Below x y) : Below (child? x) (child? y) := by
  apply (Below.refl (isNext .rightBrace)).bind
  intro closing
  cases closing with
  | true => exact .refl _
  | false => exact (below_required h).bind fun _ => .refl _

lemma below_body (h : Below x y) : Below (body x) (body y) := by
  apply (Below.refl (isNext .semicolon)).bind
  intro semicolon
  cases semicolon with
  | true => exact .refl _
  | false =>
    apply (Below.refl (isNext .leftBrace)).bind
    intro brace
    cases brace with
    | true => exact (Below.refl _).bind fun _ => (below_child? h).many.bind fun _ => .refl _
    | false => exact (below_required h).bind fun _ => .refl _

lemma below_tag (h : Below x y) : Below (tag x) (tag y) :=
  (Below.refl _).bind fun _ => (Below.refl _).bind fun _ => (below_body h).bind fun _ => .refl _

lemma below_element_zero (limit : Nat) :
    Below (element 0 : Building σ _) (element (limit + 1)) := by
  intro f
  cases hp : peek f with
  | error fault g =>
    -- the next token is read before the limit is tested, so both meet its fault
    right
    exact (bind_of_error (bind_of_error hp)).trans (bind_of_error hp).symm
  | ok t g =>
    left
    cases t with
    | none =>
      have hspan : nextSpan f = .ok (TokenSource.span g.source) g := (bind_of_ok hp).trans rfl
      exact ⟨_, g, (bind_of_ok hspan).trans rfl, rfl⟩
    | some t =>
      have hspan : nextSpan f = .ok t.span g := (bind_of_ok hp).trans rfl
      exact ⟨_, g, (bind_of_ok hspan).trans rfl, rfl⟩

lemma below_element {limit limit' : Nat} (h : limit ≤ limit') :
    Below (element limit : Building σ _) (element limit') := by
  induction limit generalizing limit' with
  | zero =>
    cases limit' with
    | zero => exact .refl _
    | succ limit' => exact below_element_zero limit'
  | succ limit ih =>
    obtain ⟨limit', rfl⟩ := Nat.exists_eq_add_one_of_ne_zero (by omega : limit' ≠ 0)
    have hlt : limit ≤ limit' := by omega
    apply (Below.refl peek).bind
    intro t
    cases t with
    | none => exact .refl _
    | some t =>
      dsimp only
      cases t.kind with
      | name => exact (below_tag (ih hlt)).bind fun _ => .refl _
      | string | html | script | style => exact .refl _
      | equal | leftBrace | rightBrace | semicolon => exact .refl _

lemma below_document {limit limit' : Nat} (h : limit ≤ limit') :
    Below (document limit : Building σ _) (document limit') :=
  (below_element h).many.bind fun _ => .refl _

end Grammar

def WithinLimit (limit : Nat) (s : Text) : Prop :=
  ∀ fault, parseWithin limit s = .error fault → fault.cause ≠ .nestingTooDeep

lemma parseWithin_of_le {limit limit' : Nat} {s : Text} (hs : WithinLimit limit s)
    (h : limit ≤ limit') : parseWithin limit' s = parseWithin limit s := by
  rcases Grammar.below_document h (ofSource (Cursor.ofText s)) with ⟨fault, g, hf, hc⟩ | hf
  · exact (hs fault (by simp [parseWithin, evaluate, hf]) hc).elim
  · simp [parseWithin, evaluate, hf]

lemma withinLimit_of_ok {limit : Nat} {s : Text} {es : List (Element Span)}
    (h : parseWithin limit s = .ok es) : WithinLimit limit s := by
  intro fault hf
  simp [h] at hf

end BraceMarkup
