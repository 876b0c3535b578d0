import BraceMarkup.Proofs.Html.Layout
import BraceMarkup.Proofs.Token.Lexical

/-! The tags that stand in written HTML, read off its text alone. They mirror the tree: an opening
marker before the children of each tag, and a closing one after them unless the tag is void. -/

namespace BraceMarkup

open Token

def Text.HasNameChars (x : Text) : Prop :=
  x ≠ [] ∧ ∀ c ∈ x, isNameChar c = true

def Text.occurrences (x s : Text) : Nat :=
  s.tails.countP x.isPrefixOf

inductive Marker
  | opening (name : Text)
  | closing (name : Text)
deriving DecidableEq, Repr

namespace Marker

def after? : Text → Option Marker
  | '/' :: cs =>
    if cs.takeWhile isNameChar ≠ [] ∧ (cs.dropWhile isNameChar).head? = some '>' then
      some (.closing (cs.takeWhile isNameChar))
    else none
  | cs =>
    if cs.takeWhile isNameChar ≠ [] then some (.opening (cs.takeWhile isNameChar)) else none

/-- What follows each `<` of a text, in order. -/
def allIn : Text → List (Option Marker)
  | [] => []
  | c :: cs => if c = '<' then after? cs :: allIn cs else allIn cs

inductive Nested : List Marker → Prop
  | nil : Nested []
  | wrap {name : Text} {inner rest : List Marker} : Nested inner → Nested rest →
      Nested (.opening name :: inner ++ .closing name :: rest)

def opensVoid (voids : List Text) : Marker → Bool
  | .opening name => voids.contains name
  | .closing _ => false

variable {x name rest : Text} {ms ns : List Marker}

lemma Nested.append (hm : Nested ms) (hn : Nested ns) : Nested (ms ++ ns) := by
  induction hm with
  | nil => exact hn
  | wrap hinner hrest _ ih => simpa using Nested.wrap hinner ih

@[simp] lemma allIn_append_of_not_mem (hx : '<' ∉ x) (rest : Text) :
    allIn (x ++ rest) = allIn rest := by
  induction x with
  | nil => rfl
  | cons c x ih =>
    obtain ⟨hc, hx⟩ := List.ne_and_not_mem_of_not_mem_cons hx
    rw [List.cons_append, allIn, if_neg hc.symm, ih hx]

lemma after?_of_ne_slash {c : Char} {cs : Text} (h : c ≠ '/') : after? (c :: cs) =
    if (c :: cs).takeWhile isNameChar ≠ [] then some (.opening ((c :: cs).takeWhile isNameChar))
    else none := by
  rw [after?.eq_def]
  split
  next heq => exact absurd (List.cons.inj heq).1 h
  next => rfl

lemma after?_opening (hname : name.HasNameChars) (hrest : ∀ c ∈ rest.head?, isNameChar c = false) :
    after? (name ++ rest) = some (.opening name) := by
  obtain ⟨hne, hchars⟩ := hname
  have htake := (Reading.takeWhile_nameChar hchars hrest).1
  obtain ⟨c, cs, rfl⟩ := List.exists_cons_of_ne_nil hne
  have hslash : c ≠ '/' := by
    rintro rfl
    exact absurd (hchars '/' List.mem_cons_self) (by decide)
  rw [List.cons_append, after?_of_ne_slash hslash, ← List.cons_append, htake, if_pos hne]

lemma after?_eq_closing_iff {cs : Text} : after? cs = some (.closing name) ↔
    name.HasNameChars ∧ '/' :: name ++ ['>'] <+: cs := by
  constructor
  · intro h
    rw [after?.eq_def] at h
    split at h
    next cs =>
      split_ifs at h with hcond
      obtain rfl := Marker.closing.inj (Option.some.inj h)
      obtain ⟨rest, hrest⟩ := List.head?_eq_some_iff.mp hcond.2
      have hcs := List.takeWhile_append_dropWhile (p := isNameChar) (l := cs)
      rw [hrest] at hcs
      exact ⟨⟨hcond.1, fun c hc => List.mem_takeWhile_imp hc⟩, rest, by simpa using hcs⟩
    next =>
      split_ifs at h
      cases Option.some.inj h
  · rintro ⟨⟨hne, hchars⟩, rest, rfl⟩
    have hend : ∀ c ∈ ('>' :: rest).head?, isNameChar c = false := by
      rintro c ⟨rfl⟩
      decide
    obtain ⟨htake, hdrop⟩ := Reading.takeWhile_nameChar hchars hend
    simp only [List.cons_append, List.append_assoc, List.nil_append, after?, htake, hdrop]
    rw [if_pos ⟨hne, rfl⟩]

lemma occurrences_closingTag (hname : name.HasNameChars) (s : Text) :
    Text.occurrences (Html.closingTag name) s = (allIn s).count (some (.closing name)) := by
  induction s with
  | nil => simp [Text.occurrences, Html.closingTag, allIn]
  | cons c cs ih =>
    rw [Text.occurrences, List.tails_cons, List.countP_cons]
    rw [Text.occurrences] at ih
    have htag : Html.closingTag name = '<' :: ('/' :: name ++ ['>']) := rfl
    by_cases hc : c = '<'
    · subst hc
      have hiff : (Html.closingTag name).isPrefixOf ('<' :: cs) = true ↔
          after? cs = some (.closing name) := by
        rw [List.isPrefixOf_iff_prefix, htag, List.cons_prefix_cons, after?_eq_closing_iff]
        exact ⟨fun h => ⟨hname, h.2⟩, fun h => ⟨rfl, h.2⟩⟩
      simp only [allIn, if_true, List.count_cons, beq_iff_eq, ih, hiff]
    · have hnot : ¬ (Html.closingTag name).isPrefixOf (c :: cs) = true := by
        rw [List.isPrefixOf_iff_prefix, htag, List.cons_prefix_cons]
        exact fun h => hc h.1.symm
      rw [allIn, if_neg hc, if_neg hnot, ih, Nat.add_zero]

end Marker

def Attribute.AngleFree {ℓ : Type} (a : Attribute ℓ) : Prop :=
  '<' ∉ a.name ∧ ∀ value ∈ a.value, '<' ∉ value

namespace Element

variable {ℓ : Type}

mutual

def AngleFree : Element ℓ → Prop
  | .tag name attributes children _ =>
    name.HasNameChars ∧ (∀ a ∈ attributes, a.AngleFree) ∧ AngleFreeAll children
  | .text value _ | .raw value _ => '<' ∉ value
  | .foreign _ => False

def AngleFreeAll : List (Element ℓ) → Prop
  | [] => True
  | e :: es => AngleFree e ∧ AngleFreeAll es

end

mutual

def markers (voids : List Text) : Element ℓ → List Marker
  | .tag name _ children _ =>
    .opening name :: markersAll voids children ++
      if voids.contains name then [] else [.closing name]
  | .text _ _ | .raw _ _ | .foreign _ => []

def markersAll (voids : List Text) : List (Element ℓ) → List Marker
  | [] => []
  | e :: es => markers voids e ++ markersAll voids es

end

mutual

def tagCount (name : Text) : Element ℓ → Nat
  | .tag other _ children _ => (if other = name then 1 else 0) + tagCountAll name children
  | .text _ _ | .raw _ _ | .foreign _ => 0

def tagCountAll (name : Text) : List (Element ℓ) → Nat
  | [] => 0
  | e :: es => tagCount name e + tagCountAll name es

end

mutual

theorem AngleFree.firstForeign : ∀ {e : Element ℓ}, e.AngleFree → e.firstForeign = none
  | .tag _ _ _ _, h => AngleFreeAll.firstForeignAll h.2.2
  | .text _ _, _ | .raw _ _, _ => rfl

theorem AngleFreeAll.firstForeignAll :
    ∀ {es : List (Element ℓ)}, AngleFreeAll es → firstForeignAll es = none
  | [], _ => rfl
  | e :: es, h => by
    rw [Element.firstForeignAll, h.1.firstForeign, AngleFreeAll.firstForeignAll h.2, Option.or_none]

end

section Nesting

variable (voids : List Text)

mutual

theorem nested_markers : ∀ e : Element ℓ,
    Marker.Nested ((markers voids e).filter (!Marker.opensVoid voids ·))
  | .tag name _ children _ => by
    have hchildren := nested_markersAll children
    by_cases hv : name ∈ voids
    · simpa [markers, Marker.opensVoid, hv] using hchildren
    · simpa [markers, Marker.opensVoid, hv] using Marker.Nested.wrap hchildren .nil
  | .text _ _ | .raw _ _ | .foreign _ => .nil

theorem nested_markersAll : ∀ es : List (Element ℓ),
    Marker.Nested ((markersAll voids es).filter (!Marker.opensVoid voids ·))
  | [] => .nil
  | e :: es => by
    rw [markersAll, List.filter_append]
    exact (nested_markers e).append (nested_markersAll es)

end

mutual

theorem count_closing_markers (name : Text) : ∀ e : Element ℓ,
    (markers voids e).count (.closing name) = if name ∈ voids then 0 else tagCount name e
  | .tag other _ children _ => by
    have hchildren := count_closing_markersAll name children
    by_cases ho : other = name
    · subst ho
      by_cases hv : other ∈ voids
      · simpa [markers, tagCount, hv] using hchildren
      · simp [markers, tagCount, hv, hchildren, Nat.add_comm 1]
    · have hlast : (if other ∈ voids then [] else [Marker.closing other]).count
          (.closing name) = 0 := by
        split <;> simp [ho]
      simp [markers, tagCount, hlast, ho, hchildren]
  | .text _ _ | .raw _ _ | .foreign _ => by simp [markers, tagCount]

theorem count_closing_markersAll (name : Text) : ∀ es : List (Element ℓ),
    (markersAll voids es).count (.closing name) = if name ∈ voids then 0 else tagCountAll name es
  | [] => by simp [markersAll, tagCountAll]
  | e :: es => by
    rw [markersAll, tagCountAll, List.count_append, count_closing_markers name e,
      count_closing_markersAll name es]
    split <;> rfl

end

end Nesting

end Element

namespace Html

open Element

variable {ℓ : Type} {name : Text} {attributes : List (Attribute ℓ)}

lemma not_mem_attributeText {a : Attribute ℓ} (h : a.AngleFree) : '<' ∉ attributeText a := by
  obtain ⟨hname, hvalue⟩ := h
  cases hv : a.value with
  | none => simp [attributeText, hv, hname]
  | some value => simp [attributeText, hv, hname, hvalue value hv]

lemma isNameChar_head_attributes (rest : Text) :
    ∀ c ∈ (attributes.flatMap attributeText ++ '>' :: rest).head?, isNameChar c = false := by
  cases attributes with
  | nil =>
    rintro c ⟨rfl⟩
    decide
  | cons a as =>
    rintro c ⟨rfl⟩
    decide

lemma allIn_openingTag (hname : name.HasNameChars) (h : ∀ a ∈ attributes, a.AngleFree)
    (rest : Text) : Marker.allIn (openingTag name attributes ++ rest) =
      some (.opening name) :: Marker.allIn rest := by
  have hattributes : '<' ∉ name ++ attributes.flatMap attributeText ++ ['>'] := by
    have hangle : '<' ∉ name := fun hc => absurd (hname.2 _ hc) (by decide)
    simpa [hangle] using fun a ha => not_mem_attributeText (h a ha)
  have hsplit : openingTag name attributes ++ rest =
      '<' :: (name ++ attributes.flatMap attributeText ++ ['>'] ++ rest) := by simp [openingTag]
  rw [hsplit, Marker.allIn, if_pos rfl, Marker.allIn_append_of_not_mem hattributes]
  congr 1
  simpa using Marker.after?_opening hname (isNameChar_head_attributes rest)

lemma allIn_closingTag (hname : name.HasNameChars) (rest : Text) :
    Marker.allIn (closingTag name ++ rest) = some (.closing name) :: Marker.allIn rest := by
  have hangle : '<' ∉ '/' :: name ++ ['>'] := by
    have hangle : '<' ∉ name := fun hc => absurd (hname.2 _ hc) (by decide)
    simp [hangle]
  have hsplit : closingTag name ++ rest = '<' :: ('/' :: name ++ ['>'] ++ rest) := by
    simp [closingTag]
  rw [hsplit, Marker.allIn, if_pos rfl, Marker.allIn_append_of_not_mem hangle]
  congr 1
  exact Marker.after?_eq_closing_iff.mpr ⟨hname, List.prefix_append _ _⟩

variable (width : Nat) (voids : List Text)

lemma allIn_pad (level : Nat) (rest : Text) :
    Marker.allIn (pad width level ++ rest) = Marker.allIn rest :=
  Marker.allIn_append_of_not_mem (by simp [pad]) rest

lemma allIn_newline (rest : Text) : Marker.allIn ('\n' :: rest) = Marker.allIn rest :=
  Marker.allIn_append_of_not_mem (x := ['\n']) (by decide) rest

mutual

theorem allIn_layout : ∀ (level : Nat) {e : Element ℓ}, e.AngleFree → ∀ rest : Text,
    Marker.allIn (layout width voids level e ++ rest) =
      (markers voids e).map some ++ Marker.allIn rest
  | level, .text value _, h, rest => by
    simp [layout, markers, allIn_pad, allIn_newline, Marker.allIn_append_of_not_mem h]
  | level, .raw value _, h, rest => by
    simp [layout, markers, allIn_pad, allIn_newline, Marker.allIn_append_of_not_mem h]
  | level, .tag name attributes children _, ⟨hname, hattributes, hchildren⟩, rest => by
    have hinner := allIn_layoutAll (level + 1) hchildren
    rw [layout, List.append_assoc, List.append_assoc, allIn_pad,
      allIn_openingTag hname hattributes, markers]
    by_cases hv : name ∈ voids
    · simp [hv, allIn_newline, hinner]
    · by_cases hempty : children = []
      · subst hempty
        simp [hv, allIn_newline, allIn_closingTag hname, markersAll]
      · simp [hv, hempty, allIn_newline, allIn_pad, allIn_closingTag hname, hinner]

theorem allIn_layoutAll : ∀ (level : Nat) {es : List (Element ℓ)}, AngleFreeAll es →
    ∀ rest : Text, Marker.allIn (layoutAll width voids level es ++ rest) =
      (markersAll voids es).map some ++ Marker.allIn rest
  | _, [], _, _ => rfl
  | level, e :: es, h, rest => by
    rw [layoutAll, List.append_assoc, allIn_layout level h.1, allIn_layoutAll level h.2, markersAll,
      List.map_append, List.append_assoc]

end

/-- If tags have names and no `<` stands elsewhere in the tree, there is HTML unless the tree nests
deeper than the limit, and what follows each `<` of it are the markers of the tree. Without the
openings of void elements they are nested, and a name is closed as often as there are tags of that
name, or never if it is void. -/
theorem render_markers {es : List (Element ℓ)} (h : AngleFreeAll es) :
    ∃ html, (∀ limit, es = [] ∨ maxDepth es < limit → render limit voids width es = .ok html) ∧
      (∀ (limit : Nat) (s : Settings) (other : Text), Settings.spaces s.indentWidth = .ok width →
        s.voidElements = voids → (renderWithin limit s es = .ok other ↔
          (es = [] ∨ maxDepth es < limit) ∧ html = other)) ∧
      Marker.allIn html = (markersAll voids es).map some ∧
      Marker.Nested ((markersAll voids es).filter (!Marker.opensVoid voids ·)) ∧
      ∀ name : Text, name.HasNameChars → Text.occurrences (closingTag name) html =
        if name ∈ voids then 0 else tagCountAll name es := by
  have hmarkers : Marker.allIn (layoutAll width voids 0 es) = (markersAll voids es).map some := by
    simpa [Marker.allIn] using allIn_layoutAll width voids 0 h []
  refine ⟨layoutAll width voids 0 es, fun limit hdepth => ?_, ?_, hmarkers,
    nested_markersAll voids es, ?_⟩
  · rw [render_eq, firstObstacleAll_eq_none_iff.mpr ⟨h.firstForeignAll, hdepth⟩]
    rfl
  · rintro limit s other hwidth rfl
    simp [renderWithin_eq_ok_iff, hwidth, h.firstForeignAll]
  · intro name hname
    rw [Marker.occurrences_closingTag hname, hmarkers,
      List.count_map_of_injective _ _ (Option.some_injective _), count_closing_markersAll]

def voidParent : List (Element Unit) :=
  [.tag "meta".toList [⟨"a".toList, some "\">\"".toList, ()⟩]
    [.tag "p".toList [] [.text "/p>".toList ()] (), .tag "p".toList [] [] ()] ()]

theorem render_markers_voidParent :
    AngleFreeAll voidParent ∧ ∃ html, render 3 ["meta".toList] 2 voidParent = .ok html ∧
      Marker.allIn html = [some (.opening "meta".toList), some (.opening "p".toList),
        some (.closing "p".toList), some (.opening "p".toList), some (.closing "p".toList)] ∧
      Text.occurrences (closingTag "p".toList) html = 2 ∧
      Text.occurrences (closingTag "meta".toList) html = 0 := by
  have hfree : AngleFreeAll voidParent := by
    simp [voidParent, AngleFreeAll, AngleFree, Attribute.AngleFree, Text.HasNameChars]
    decide
  obtain ⟨html, hrender, -, hmarkers, -, hcount⟩ := render_markers 2 ["meta".toList] hfree
  exact ⟨hfree, html, hrender 3 (.inr (by decide)), hmarkers, hcount _ ⟨by decide, List.all_eq_true.mp (by decide)⟩,
    hcount _ ⟨by decide, List.all_eq_true.mp (by decide)⟩⟩

end Html

end BraceMarkup
