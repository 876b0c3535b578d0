import BraceMarkup.Token.Cursor

/-!
Tokens with one token of lookahead. A feed asks its source for a token only when its slot is empty,
and never again once the source has ended. An action keeps what it has consumed also when it fails.
-/

namespace BraceMarkup

/-- A source of tokens, with the span where it stands and a bound on the tokens still to come. -/
class TokenSource (σ : Type) where
  next : σ → Except Fault (Option Token) × σ
  span : σ → Span
  remaining : σ → Nat

instance : TokenSource Cursor where
  next := Cursor.scan
  span := Cursor.span
  remaining c := c.rest.length

structure Recording where
  tokens : List Token
  ending : Except Fault Span

instance : TokenSource Recording where
  next r :=
    match r.tokens, r.ending with
    | token :: tokens, _ => (.ok (some token), { r with tokens })
    | [], .ok _ => (.ok none, r)
    | [], .error fault => (.error fault, r)
  span r :=
    match r.ending with
    | .ok span => span
    | .error fault => fault.span
  remaining r := r.tokens.length

def Recording.ofCursor (c : Cursor) : Recording where
  tokens := c.drain.tokens
  ending :=
    match c.drain.fault with
    | none => .ok c.drain.cursor.span
    | some fault => .error fault

structure Feed (σ : Type) where
  source : σ
  slot : Option Token := none
  ended : Bool := false
  bound : Nat

abbrev Building (σ : Type) := EStateM Fault (Feed σ)

namespace Feed

variable {σ : Type} [TokenSource σ]

def ofSource (source : σ) : Feed σ :=
  { source, bound := TokenSource.remaining source + 1 }

def evaluate {α : Type} (action : Building σ α) (source : σ) : Except Fault α :=
  match action (ofSource source) with
  | .ok a _ => .ok a
  | .error fault _ => .error fault

def peek : Building σ (Option Token) := fun f =>
  match f.slot with
  | some token => .ok (some token) f
  | none =>
    if f.ended then .ok none f
    else match TokenSource.next f.source with
      | (.ok none, source) => .ok none { f with source, ended := true }
      | (.ok (some token), source) => .ok (some token) { f with source, slot := some token }
      | (.error fault, source) => .error fault { f with source }

def take : Building σ (Option Token) := do
  let token ← peek
  modify ({ · with slot := none })
  return token

def isNext (kind : Token.Kind) : Building σ Bool := do
  match ← peek with
  | none => return false
  | some token => return token.kind = kind

def nextSpan : Building σ Span := do
  match ← peek with
  | some token => return token.span
  | none => return TokenSource.span (← get).source

def reject {α : Type} (cause : Fault.Cause) : Building σ α := do
  throw ⟨cause, ← nextSpan⟩

def expect (kind : Token.Kind) (needed : Text) : Building σ Token := do
  match ← peek with
  | none => reject (.unexpectedToken needed)
  | some token =>
    if token.kind = kind then
      discard take
      return token
    else reject (.unexpectedToken needed)

def repeatUpTo {α : Type} (step : Building σ (Option α)) : Nat → Building σ (List α)
  | 0 => return []
  | n + 1 => do
    match ← step with
    | none => return []
    | some a => return a :: (← repeatUpTo step n)

/-- Repeats a step as long as it gives something. Each such step has to take a token, so the bound
of the feed is never reached. -/
def many {α : Type} (step : Building σ (Option α)) : Building σ (List α) := do
  repeatUpTo step (← get).bound

end Feed

end BraceMarkup
