import BraceMarkup.Fault
import BraceMarkup.Token

/-!
What stands at the head of a text: a token, something to skip, or a fault. Blanks, comments and
escaped characters are skipped; raw markup and embedded blocks end where their brackets balance.
-/

namespace BraceMarkup.Token

def blanks : Text := ['\n', '\r', '\t', ' ']

def quotes : Text := ['"', '\'']

def marks : List (Char × Kind) :=
  [('=', .equal), (openBrace, .leftBrace), (closeBrace, .rightBrace), (';', .semicolon)]

def isNameStart (c : Char) : Bool :=
  c.isAlpha || c = '_' || c = '-'

def isNameChar (c : Char) : Bool :=
  isNameStart c || c.isDigit

def embeddedKind? (name : Text) : Option Kind :=
  if name = ['j', 's'] then some .script
  else if name = ['c', 's', 's'] then some .style
  else none

def balanced (opening closing : Char) : Nat → Text → Option (Text × Text)
  | _, [] => none
  | depth, c :: cs =>
    if c = opening then (balanced opening closing (depth + 1) cs).map (.map (c :: ·) id)
    else if c = closing then
      match depth with
      | 0 => some ([c], cs)
      | depth + 1 => (balanced opening closing depth cs).map (.map (c :: ·) id)
    else (balanced opening closing depth cs).map (.map (c :: ·) id)

def lineComment : Text → Text × Text
  | [] => ([], [])
  | c :: cs => if c = '\n' then ([c], cs) else (lineComment cs).map (c :: ·) id

def blockComment : Text → Text × Text
  | [] => ([], [])
  | '*' :: '/' :: cs => (['*', '/'], cs)
  | c :: cs => (blockComment cs).map (c :: ·) id

inductive Reading
  | finished
  | skipped (text rest : Text)
  | token (kind : Kind) (lexeme rest : Text)
  | endless (cause : Fault.Cause)
  | stray (c : Char)
deriving DecidableEq, Repr

namespace Reading

def ofString (quote : Char) (cs : Text) : Reading :=
  match cs.dropWhile (· != quote) with
  | [] => .endless .malformedString
  | _ :: rest => .token .string (quote :: cs.takeWhile (· != quote) ++ [quote]) rest

def ofComment : Text → Reading
  | '*' :: cs => .skipped ('/' :: '*' :: (blockComment cs).1) (blockComment cs).2
  | '/' :: cs => .skipped ('/' :: '/' :: (lineComment cs).1) (lineComment cs).2
  | _ => .stray '/'

def ofMarkup (cs : Text) : Reading :=
  match balanced '<' '>' 0 cs with
  | none => .endless .malformedHtml
  | some (body, rest) => .token .html ('<' :: body) rest

def ofEscape : Text → Reading
  | [] => .skipped ['\\'] []
  | c :: cs => .skipped ['\\', c] cs

def blockFault (kind : Kind) : Fault.Cause :=
  if kind = .style then .malformedStyle else .malformedScript

def ofBlock (kind : Kind) (name cs : Text) : Reading :=
  match balanced openBrace closeBrace 0 cs with
  | none => .endless (blockFault kind)
  | some (body, rest) => .token kind (name ++ openBrace :: body) rest

def ofName (name rest : Text) : Reading :=
  match embeddedKind? name, rest with
  | some kind, c :: cs => if c = openBrace then ofBlock kind name cs else .token .name name rest
  | _, _ => .token .name name rest

def first : Text → Reading
  | [] => .finished
  | c :: cs =>
    if c ∈ blanks then .skipped [c] cs
    else if c ∈ quotes then ofString c cs
    else match marks.lookup c with
      | some kind => .token kind [c] cs
      | none =>
        if c = '/' then ofComment cs
        else if c = '<' then ofMarkup cs
        else if c = '\\' then ofEscape cs
        else if isNameStart c then ofName (c :: cs.takeWhile isNameChar) (cs.dropWhile isNameChar)
        else .stray c

end Reading

theorem append_of_balanced {opening closing : Char} {depth : Nat} {s body rest : Text}
    (h : balanced opening closing depth s = some (body, rest)) : s = body ++ rest := by
  induction s generalizing depth body with
  | nil => simp [balanced] at h
  | cons c cs ih =>
    have step (d : Nat)
        (hd : (balanced opening closing d cs).map (.map (c :: ·) id) = some (body, rest)) :
        c :: cs = body ++ rest := by
      obtain ⟨⟨b, r⟩, hb, he⟩ := Option.map_eq_some_iff.1 hd
      obtain ⟨rfl, rfl⟩ := Prod.mk.inj he
      simpa using ih hb
    unfold balanced at h
    split at h
    · exact step _ h
    · split at h
      · split at h
        · obtain ⟨rfl, rfl⟩ := Prod.mk.inj (Option.some.inj h)
          rfl
        · exact step _ h
      · exact step _ h

theorem lineComment_append (s : Text) : (lineComment s).1 ++ (lineComment s).2 = s := by
  induction s with
  | nil => rfl
  | cons c cs ih =>
    unfold lineComment
    split
    · rfl
    · simpa using ih

theorem blockComment_append (s : Text) : (blockComment s).1 ++ (blockComment s).2 = s := by
  fun_induction blockComment s with
  | case1 => rfl
  | case2 => rfl
  | case3 c cs _ ih => simpa using ih

namespace Reading

/-- A reading accounts for at least one character and for all it has read: the text it covers,
and after it the rest. -/
def Splits (s : Text) : Reading → Prop
  | .skipped text rest | .token _ text rest => text ≠ [] ∧ s = text ++ rest
  | .finished | .endless _ | .stray _ => True

theorem splits_ofString (quote : Char) (cs : Text) : (ofString quote cs).Splits (quote :: cs) := by
  unfold ofString
  split
  next => trivial
  next c rest h =>
    have hc : c = quote := by
      have := List.head?_dropWhile_not (· != quote) cs
      simpa only [h, List.head?_cons, Bool.not_eq_true, bne_eq_false_iff_eq] using this
    have hs := List.takeWhile_append_dropWhile (p := (· != quote)) (l := cs)
    rw [h, hc] at hs
    exact ⟨by simp, by simp [hs]⟩

theorem splits_ofComment (cs : Text) : (ofComment cs).Splits ('/' :: cs) := by
  unfold ofComment
  split
  next cs => exact ⟨by simp, by simpa using (blockComment_append cs).symm⟩
  next cs => exact ⟨by simp, by simpa using (lineComment_append cs).symm⟩
  next => trivial

theorem splits_ofMarkup (cs : Text) : (ofMarkup cs).Splits ('<' :: cs) := by
  unfold ofMarkup
  split
  next => trivial
  next body rest h => exact ⟨by simp, by simpa using append_of_balanced h⟩

theorem splits_ofEscape (cs : Text) : (ofEscape cs).Splits ('\\' :: cs) := by
  cases cs <;> exact ⟨by simp, rfl⟩

theorem splits_ofName {name : Text} (hn : name ≠ []) (rest : Text) :
    (ofName name rest).Splits (name ++ rest) := by
  unfold ofName ofBlock
  split
  next kind c cs _ =>
    split
    next hc =>
      subst hc
      split
      next => trivial
      next body r h => exact ⟨by simp, by simpa using append_of_balanced h⟩
    next => exact ⟨hn, rfl⟩
  next => exact ⟨hn, rfl⟩

theorem splits_first (s : Text) : (first s).Splits s := by
  unfold first
  split
  next => trivial
  next c cs =>
    split
    next => exact ⟨by simp, rfl⟩
    split
    next => exact splits_ofString c cs
    split
    next => exact ⟨by simp, rfl⟩
    split
    next h => exact h ▸ splits_ofComment cs
    split
    next h => exact h ▸ splits_ofMarkup cs
    split
    next h => exact h ▸ splits_ofEscape cs
    split
    next =>
      have hn : c :: cs.takeWhile isNameChar ≠ [] := by simp
      have h := splits_ofName hn (cs.dropWhile isNameChar)
      rwa [List.cons_append, List.takeWhile_append_dropWhile] at h
    next => trivial

end Reading

end BraceMarkup.Token
