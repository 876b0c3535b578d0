import BraceMarkup.Proofs.Html.Composition
import BraceMarkup.Proofs.Text.Lines

namespace BraceMarkup

namespace Text

def leadingSpaces (s : Text) : Nat :=
  (s.takeWhile (· = ' ')).length

def deepestIndent (s : Text) : Nat :=
  (s.lines.map leadingSpaces).foldr max 0

variable {x : Text}

lemma leadingSpaces_replicate_append (hx : x.head? ≠ some ' ') (n : Nat) :
    leadingSpaces (List.replicate n ' ' ++ x) = n := by
  have hstop : x.takeWhile (· = ' ') = [] := by
    cases x with
    | nil => rfl
    | cons c x => exact List.takeWhile_cons_of_neg (by simpa using hx)
  rw [leadingSpaces, List.takeWhile_append_of_pos (by simp), hstop]
  simp

lemma deepestIndent_line (hx : '\n' ∉ x) (s : Text) :
    deepestIndent (x ++ '\n' :: s) = max x.leadingSpaces s.deepestIndent := by
  rw [deepestIndent, lines_append_newline hx]
  rfl

end Text

def Attribute.OneLine {ℓ : Type} (a : Attribute ℓ) : Prop :=
  '\n' ∉ a.name ∧ ∀ value ∈ a.value, '\n' ∉ value

namespace Element

variable {ℓ : Type}

mutual

/-- Everything in the element stays on one line, and no text or raw markup starts with a space. -/
def Flush : Element ℓ → Prop
  | .tag name attributes children _ =>
    '\n' ∉ name ∧ (∀ a ∈ attributes, a.OneLine) ∧ FlushAll children
  | .text value _ | .raw value _ => '\n' ∉ value ∧ value.head? ≠ some ' '
  | .foreign _ => False

def FlushAll : List (Element ℓ) → Prop
  | [] => True
  | e :: es => Flush e ∧ FlushAll es

end

mutual

theorem Flush.firstForeign : ∀ e : Element ℓ, Flush e → firstForeign e = none
  | .tag _ _ children _, h => FlushAll.firstForeignAll children h.2.2
  | .text _ _, _ | .raw _ _, _ => rfl
  | .foreign _, h => h.elim

theorem FlushAll.firstForeignAll : ∀ es : List (Element ℓ), FlushAll es → firstForeignAll es = none
  | [], _ => rfl
  | e :: es, h => by
    rw [Element.firstForeignAll, Flush.firstForeign e h.1, FlushAll.firstForeignAll es h.2]
    rfl

end

end Element

namespace Html

open Element Text

variable {ℓ : Type} (width : Nat) (voids : List Text) {name x : Text}
  {attributes : List (Attribute ℓ)}

lemma newline_not_mem_openingTag (hname : '\n' ∉ name) (h : ∀ a ∈ attributes, a.OneLine) :
    '\n' ∉ openingTag name attributes := by
  have hattribute : ∀ a ∈ attributes, '\n' ∉ attributeText a := by
    intro a ha
    obtain ⟨hn, hv⟩ := h a ha
    cases hvalue : a.value with
    | none => simp [attributeText, hvalue, hn]
    | some value => simp [attributeText, hvalue, hn, hv value (by simp [hvalue])]
  simp only [openingTag, List.cons_append, List.mem_cons, List.mem_append, List.mem_flatMap]
  rintro (hc | ((hc | ⟨a, ha, hc⟩) | hc))
  · cases hc
  · exact hname hc
  · exact hattribute a ha hc
  · simp at hc

lemma newline_not_mem_closingTag (hname : '\n' ∉ name) : '\n' ∉ closingTag name := by
  simp [closingTag, hname]

lemma newline_not_mem_pad (level : Nat) : '\n' ∉ pad width level := by
  simp [pad]

lemma deepestIndent_pad (level : Nat) (hx : '\n' ∉ x) (hhead : x.head? ≠ some ' ') (s : Text) :
    deepestIndent (pad width level ++ x ++ '\n' :: s) = max (width * level) s.deepestIndent := by
  have hline : '\n' ∉ pad width level ++ x := by
    rw [List.mem_append, not_or]
    exact ⟨newline_not_mem_pad width level, hx⟩
  rw [deepestIndent_line hline, pad, leadingSpaces_replicate_append hhead]

def reach (level : Nat) (es : List (Element ℓ)) : Nat :=
  if es.isEmpty then 0 else width * (level + maxDepth es)

lemma reach_cons (level : Nat) (e : Element ℓ) (es : List (Element ℓ)) :
    reach width level (e :: es) = max (width * (level + e.depth)) (reach width level es) := by
  cases es with
  | nil => simp [reach, maxDepth]
  | cons f es =>
    rw [reach, reach, if_neg (by simp), if_neg (by simp), maxDepth, ← Nat.add_max_add_left,
      Nat.mul_max_mul_left]

lemma reach_children (level : Nat) (name : Text) (attributes : List (Attribute ℓ))
    (children : List (Element ℓ)) (location : ℓ) :
    max (width * level) (reach width (level + 1) children) =
      width * (level + (Element.tag name attributes children location).depth) := by
  cases children with
  | nil => simp [reach, depth]
  | cons e es =>
    have hlevel : width * level ≤ width * (level + 1 + maxDepth (e :: es)) := by
      apply Nat.mul_le_mul_left
      omega
    rw [reach, depth, if_neg (by simp), if_neg (by simp), Nat.max_eq_right hlevel, Nat.add_assoc]

mutual

theorem deepestIndent_layout (level : Nat) : ∀ e : Element ℓ, Flush e → ∀ s : Text,
    deepestIndent (layout width voids level e ++ s) =
      max (width * (level + e.depth)) s.deepestIndent
  | .text value _, h, s | .raw value _, h, s => by
    have hline := deepestIndent_pad width level h.1 h.2 s
    simpa [layout, depth] using hline
  | .foreign _, h, _ => h.elim
  | .tag name attributes children location, h, s => by
    obtain ⟨hname, hattributes, hchildren⟩ := h
    have hopening := newline_not_mem_openingTag hname hattributes
    have hclosing := newline_not_mem_closingTag hname
    have hinner := deepestIndent_layoutAll (level + 1) children hchildren
    have hdepth := reach_children width level name attributes children location
    rw [layout]
    split
    · -- A void tag ends with the last of its children.
      have hline := deepestIndent_pad width level hopening (by simp [openingTag])
        (layoutAll width voids (level + 1) children ++ s)
      rw [hinner, ← max_assoc, hdepth] at hline
      simpa using hline
    · split
      next hempty =>
        have hboth : '\n' ∉ openingTag name attributes ++ closingTag name := by
          rw [List.mem_append, not_or]
          exact ⟨hopening, hclosing⟩
        have hline := deepestIndent_pad width level hboth (by simp [openingTag]) s
        have hlevel : (Element.tag name attributes children location).depth = 0 := by
          rw [depth, if_pos hempty]
        rw [hlevel]
        simpa using hline
      next =>
        have hlast := deepestIndent_pad width level hclosing (by simp [closingTag]) s
        have hline := deepestIndent_pad width level hopening (by simp [openingTag])
          (layoutAll width voids (level + 1) children ++
            (pad width level ++ closingTag name ++ '\n' :: s))
        -- The closing tag stands at the level of the opening one and adds nothing.
        have hagain : max (width * level) (max (reach width (level + 1) children)
            (max (width * level) s.deepestIndent)) =
              max (max (width * level) (reach width (level + 1) children)) s.deepestIndent := by
          omega
        rw [hinner, hlast, hagain, hdepth] at hline
        simpa using hline

theorem deepestIndent_layoutAll (level : Nat) : ∀ es : List (Element ℓ), FlushAll es → ∀ s : Text,
    deepestIndent (layoutAll width voids level es ++ s) = max (reach width level es) s.deepestIndent
  | [], _, s => by simp [layoutAll, reach]
  | e :: es, h, s => by
    rw [layoutAll, List.append_assoc, deepestIndent_layout level e h.1,
      deepestIndent_layoutAll level es h.2, reach_cons, max_assoc]

end

end Html

open Element Html

variable {ℓ : Type}

end BraceMarkup
