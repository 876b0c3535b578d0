import BraceMarkup.Text

/-!
Names matched by wildcards: `*` stands for any text, `?` for any character, and `[...]` for one of
a set of characters, or for any other one after `[!`. A bracket that is never closed stands for
itself.
-/

namespace BraceMarkup.Text

inductive SetItem
  | single (c : Char)
  | range (low high : Char)
deriving DecidableEq, Repr

namespace SetItem

def ofText : Text → List SetItem
  | low :: '-' :: high :: cs => .range low high :: ofText cs
  | c :: cs => .single c :: ofText cs
  | [] => []

def isEmpty : SetItem → Bool
  | .single _ => false
  | .range low high => high < low

def accepts (c : Char) : SetItem → Bool
  | .single d => c = d
  | .range low high => low ≤ c && c ≤ high

end SetItem

inductive Wildcard
  | anyText
  | anyChar
  | exactly (c : Char)
  | oneOf (negated : Bool) (items : List SetItem)
deriving DecidableEq, Repr

namespace Wildcard

def bracketed? : Text → Option (Text × Text)
  | [] => none
  | c :: cs =>
    match cs.dropWhile (· != ']') with
    | [] => none
    | _ :: rest => some (c :: cs.takeWhile (· != ']'), rest)

def items (body : Text) : List SetItem :=
  (SetItem.ofText body).filter (!·.isEmpty)

def ofItems : List SetItem → Wildcard
  | .single '!' :: others => .oneOf true others
  | .range '!' high :: others => .oneOf true (.single '-' :: .single high :: others)
  | others => .oneOf false others

def set? : Text → Option (Wildcard × Text)
  | '!' :: cs => (bracketed? cs).map fun (body, rest) => (.oneOf true (items body), rest)
  | cs => (bracketed? cs).map fun (body, rest) => (ofItems (items body), rest)

def head (c : Char) (cs : Text) : Wildcard × Text :=
  if c = '*' then (.anyText, cs)
  else if c = '?' then (.anyChar, cs)
  else if c = '[' then (set? cs).getD (.exactly c, cs)
  else (.exactly c, cs)

theorem length_of_bracketed? {s body rest : Text} (h : bracketed? s = some (body, rest)) :
    rest.length ≤ s.length := by
  unfold bracketed? at h
  split at h
  next => simp at h
  next c cs =>
    have hd := (List.dropWhile_sublist (l := cs) (· != ']')).length_le
    split at h
    next => simp at h
    next hc =>
      obtain ⟨_, rfl⟩ := Prod.mk.inj (Option.some.inj h)
      rw [hc, List.length_cons] at hd
      rw [List.length_cons]
      omega

theorem length_of_set? {s rest : Text} {w : Wildcard} (h : set? s = some (w, rest)) :
    rest.length ≤ s.length := by
  unfold set? at h
  split at h
  next cs =>
    obtain ⟨⟨body, r⟩, hb, he⟩ := Option.map_eq_some_iff.1 h
    obtain ⟨_, rfl⟩ := Prod.mk.inj he
    exact Nat.le_succ_of_le (length_of_bracketed? hb)
  next =>
    obtain ⟨⟨body, r⟩, hb, he⟩ := Option.map_eq_some_iff.1 h
    obtain ⟨_, rfl⟩ := Prod.mk.inj he
    exact length_of_bracketed? hb

theorem length_head (c : Char) (cs : Text) : (head c cs).2.length ≤ cs.length := by
  unfold head
  split
  next => exact Nat.le_refl _
  split
  next => exact Nat.le_refl _
  split
  next =>
    cases h : set? cs with
    | none => exact Nat.le_refl _
    | some found => exact length_of_set? h
  next => exact Nat.le_refl _

def parse : Text → List Wildcard
  | [] => []
  | c :: cs => (head c cs).1 :: parse (head c cs).2
termination_by s => s.length
decreasing_by exact Nat.lt_succ_of_le (length_head c cs)

def accepts (w : Wildcard) (c : Char) : Bool :=
  match w with
  | .anyText => false
  | .anyChar => true
  | .exactly d => c = d
  | .oneOf negated items => items.any (·.accepts c) != negated

def anyFrom (answers : List Bool) : List Bool :=
  answers.foldr (fun b later => (b || later.headD false) :: later) []

def matchEnds (s : Text) : List Wildcard → List Bool
  | [] => s.map (fun _ => false) ++ [true]
  | .anyText :: ws => anyFrom (matchEnds s ws)
  | w :: ws => List.zipWith (fun c b => w.accepts c && b) s (matchEnds s ws).tail ++ [false]

def matchAll (ws : List Wildcard) (s : Text) : Bool :=
  (matchEnds s ws).headD false

theorem matchEnds_of_ne {w : Wildcard} (h : w ≠ .anyText) (s : Text) (ws : List Wildcard) :
    matchEnds s (w :: ws) =
      List.zipWith (fun c b => w.accepts c && b) s (matchEnds s ws).tail ++ [false] := by
  cases w with
  | anyText => exact absurd rfl h
  | _ => rfl

theorem length_anyFrom (answers : List Bool) : (anyFrom answers).length = answers.length := by
  induction answers with
  | nil => rfl
  | cons b bs ih => simpa [anyFrom] using ih

theorem length_matchEnds (s : Text) (ws : List Wildcard) :
    (matchEnds s ws).length = s.length + 1 := by
  induction ws with
  | nil => simp [matchEnds]
  | cons w ws ih =>
    by_cases h : w = .anyText
    · rw [h, matchEnds, length_anyFrom, ih]
    · simp [matchEnds_of_ne h, ih]

theorem matchEnds_eq_cons (s : Text) (ws : List Wildcard) :
    matchEnds s ws = matchAll ws s :: (matchEnds s ws).tail := by
  have h := length_matchEnds s ws
  unfold matchAll
  cases he : matchEnds s ws with
  | nil => simp [he] at h
  | cons b bs => rfl

theorem tail_matchEnds (c : Char) (cs : Text) (ws : List Wildcard) :
    (matchEnds (c :: cs) ws).tail = matchEnds cs ws := by
  induction ws with
  | nil => rfl
  | cons w ws ih =>
    by_cases h : w = .anyText
    · rw [h, matchEnds, matchEnds_eq_cons (c :: cs) ws, ih]
      rfl
    · rw [matchEnds_of_ne h, matchEnds_of_ne h, ih, matchEnds_eq_cons cs ws]
      rfl

theorem matchAll_nil (s : Text) : matchAll [] s = s.isEmpty := by
  cases s <;> rfl

theorem matchAll_anyText_nil (ws : List Wildcard) :
    matchAll (.anyText :: ws) [] = matchAll ws [] := by
  have h := length_matchEnds [] ws
  rw [matchAll, matchAll, matchEnds]
  match matchEnds [] ws, h with
  | [b], _ => simp [anyFrom]

theorem matchAll_anyText_cons (ws : List Wildcard) (c : Char) (cs : Text) :
    matchAll (.anyText :: ws) (c :: cs) =
      (matchAll ws (c :: cs) || matchAll (.anyText :: ws) cs) := by
  rw [matchAll, matchEnds, matchEnds_eq_cons (c :: cs) ws, tail_matchEnds]
  rfl

theorem matchAll_cons_nil {w : Wildcard} (h : w ≠ .anyText) (ws : List Wildcard) :
    matchAll (w :: ws) [] = false := by
  rw [matchAll, matchEnds_of_ne h]
  rfl

theorem matchAll_cons_cons {w : Wildcard} (h : w ≠ .anyText) (ws : List Wildcard) (c : Char)
    (cs : Text) : matchAll (w :: ws) (c :: cs) = (w.accepts c && matchAll ws cs) := by
  rw [matchAll, matchEnds_of_ne h, tail_matchEnds, matchEnds_eq_cons cs ws]
  rfl

end Wildcard

def hasWildcard (pattern : Text) : Bool :=
  pattern.any (· ∈ ['*', '?', '['])

def matchesPattern (pattern name : Text) : Bool :=
  Wildcard.matchAll (Wildcard.parse pattern) name

end BraceMarkup.Text
