import BraceMarkup.Transpile
import Mathlib.Tactic

/-! What writing elements adds to the output, said without a buffer: a text that depends on nothing
written before, and only as long as nothing is in its way. -/

namespace BraceMarkup

namespace Element

variable {ℓ : Type}

mutual

def firstForeign : Element ℓ → Option Foreign
  | .tag _ _ children _ => firstForeignAll children
  | .text _ _ | .raw _ _ => none
  | .foreign thing => some thing

def firstForeignAll : List (Element ℓ) → Option Foreign
  | [] => none
  | e :: es => (firstForeign e).or (firstForeignAll es)

end

def tooDeep? (limit level : Nat) : Option Html.Obstacle :=
  if limit ≤ level then some .tooDeep else none

mutual

def firstObstacle (limit level : Nat) : Element ℓ → Option Html.Obstacle
  | .tag _ _ children _ => (tooDeep? limit level).or (firstObstacleAll limit (level + 1) children)
  | .text _ _ | .raw _ _ => tooDeep? limit level
  | .foreign thing => some (.foreign thing)

def firstObstacleAll (limit level : Nat) : List (Element ℓ) → Option Html.Obstacle
  | [] => none
  | e :: es => (firstObstacle limit level e).or (firstObstacleAll limit level es)

end

variable {limit level : Nat}

lemma tooDeep?_eq_none_iff : tooDeep? limit level = none ↔ level < limit := by
  simp [tooDeep?]

mutual

theorem firstObstacle_of_depth : ∀ (level : Nat) (e : Element ℓ), level + e.depth < limit →
    firstObstacle limit level e = (firstForeign e).map .foreign
  | level, .text _ _, h | level, .raw _ _, h => tooDeep?_eq_none_iff.mpr h
  | _, .foreign _, _ => rfl
  | level, .tag name attributes children location, h => by
    rw [firstObstacle, firstForeign, tooDeep?_eq_none_iff.mpr (by omega), Option.none_or]
    apply firstObstacleAll_of_maxDepth
    intro hne
    rw [depth, if_neg (by simpa using hne)] at h
    omega

theorem firstObstacleAll_of_maxDepth : ∀ (level : Nat) (es : List (Element ℓ)),
    (es ≠ [] → level + maxDepth es < limit) →
    firstObstacleAll limit level es = (firstForeignAll es).map .foreign
  | _, [], _ => rfl
  | level, e :: es, h => by
    have hdepth : level + max e.depth (maxDepth es) < limit := h (List.cons_ne_nil e es)
    have hfirst := firstObstacle_of_depth level e (by omega)
    have hrest := firstObstacleAll_of_maxDepth level es fun _ => by omega
    rw [firstObstacleAll, firstForeignAll, hfirst, hrest, Option.map_or]

end

mutual

theorem of_firstObstacle_eq_none : ∀ (level : Nat) (e : Element ℓ),
    firstObstacle limit level e = none → firstForeign e = none ∧ level + e.depth < limit
  | _, .text _ _, h | _, .raw _ _, h => ⟨rfl, tooDeep?_eq_none_iff.mp h⟩
  | level, .tag name attributes children location, h => by
    rw [firstObstacle, Option.or_eq_none_iff, tooDeep?_eq_none_iff] at h
    obtain ⟨hlevel, hnone⟩ := h
    obtain ⟨hforeign, hdepth⟩ := of_firstObstacleAll_eq_none (level + 1) children hnone
    refine ⟨hforeign, ?_⟩
    rw [depth]
    split
    · exact hlevel
    next hne =>
      have := hdepth (by simpa using hne)
      omega

theorem of_firstObstacleAll_eq_none : ∀ (level : Nat) (es : List (Element ℓ)),
    firstObstacleAll limit level es = none →
    firstForeignAll es = none ∧ (es ≠ [] → level + maxDepth es < limit)
  | _, [], _ => ⟨rfl, fun h => (h rfl).elim⟩
  | level, e :: es, h => by
    rw [firstObstacleAll, Option.or_eq_none_iff] at h
    obtain ⟨hforeign, hdepth⟩ := of_firstObstacle_eq_none level e h.1
    obtain ⟨hforeigns, hdepths⟩ := of_firstObstacleAll_eq_none level es h.2
    refine ⟨by rw [firstForeignAll, hforeign, hforeigns]; rfl, fun _ => ?_⟩
    cases es with
    | nil => simpa [maxDepth] using hdepth
    | cons f fs =>
      have := hdepths (List.cons_ne_nil f fs)
      rw [maxDepth]
      omega

end

lemma firstObstacleAll_eq_none_iff {es : List (Element ℓ)} :
    firstObstacleAll limit 0 es = none ↔
      firstForeignAll es = none ∧ (es = [] ∨ maxDepth es < limit) := by
  constructor
  · intro h
    obtain ⟨hforeign, hdepth⟩ := of_firstObstacleAll_eq_none 0 es h
    refine ⟨hforeign, or_iff_not_imp_left.mpr fun hne => ?_⟩
    simpa using hdepth hne
  · rintro ⟨hforeign, hdepth⟩
    rw [firstObstacleAll_of_maxDepth 0 es, hforeign]
    · rfl
    · simpa using hdepth.resolve_left

end Element

namespace Html

open Element

variable {ℓ : Type} (limit width : Nat) (voids : List Text)

def attributeText (a : Attribute ℓ) : Text :=
  ' ' :: a.name ++ match a.value with
    | none => []
    | some value => '=' :: value

def openingTag (name : Text) (attributes : List (Attribute ℓ)) : Text :=
  '<' :: name ++ attributes.flatMap attributeText ++ ['>']

def closingTag (name : Text) : Text :=
  "</".toList ++ name ++ ['>']

mutual

def layout (level : Nat) : Element ℓ → Text
  | .text value _ | .raw value _ => pad width level ++ value ++ ['\n']
  | .foreign _ => []
  | .tag name attributes children _ =>
    pad width level ++ openingTag name attributes ++
      if voids.contains name then '\n' :: layoutAll (level + 1) children
      else if children.isEmpty then closingTag name ++ ['\n']
      else '\n' :: layoutAll (level + 1) children ++ pad width level ++ closingTag name ++ ['\n']

def layoutAll (level : Nat) : List (Element ℓ) → Text
  | [] => []
  | e :: es => layout level e ++ layoutAll level es

end

lemma layoutAll_append (level : Nat) (es fs : List (Element ℓ)) :
    layoutAll width voids level (es ++ fs) =
      layoutAll width voids level es ++ layoutAll width voids level fs := by
  induction es with
  | nil => rfl
  | cons e es ih => rw [List.cons_append, layoutAll, layoutAll, ih, List.append_assoc]

lemma openingTag_bare (name : Text) (attributes : List (Attribute ℓ)) :
    openingTag name (attributes.map Attribute.bare) = openingTag name attributes := by
  rw [openingTag, openingTag, List.flatMap_map]
  rfl

mutual

theorem layout_bare (level : Nat) :
    ∀ e : Element ℓ, layout width voids level e.bare = layout width voids level e
  | .tag name attributes children _ => by
    have hempty : (bareAll children).isEmpty = children.isEmpty := by cases children <;> rfl
    rw [bare, layout, layout, openingTag_bare, hempty, layoutAll_bareAll]
  | .text _ _ | .raw _ _ | .foreign _ => rfl

theorem layoutAll_bareAll (level : Nat) :
    ∀ es : List (Element ℓ), layoutAll width voids level (bareAll es) = layoutAll width voids level es
  | [] => rfl
  | e :: es => by rw [bareAll, layoutAll, layoutAll, layout_bare, layoutAll_bareAll]

end

section Tags

variable (name : Text) (attributes : List (Attribute ℓ)) (b : Buffer)

lemma text_writeAttribute (a : Attribute ℓ) :
    (writeAttribute b a).text = b.text ++ attributeText a := by
  cases hv : a.value <;> simp [writeAttribute, attributeText, hv]

lemma width_writeAttribute (a : Attribute ℓ) : (writeAttribute b a).width = b.width := by
  cases hv : a.value <;> simp [writeAttribute, hv]

lemma text_foldl_writeAttribute :
    (attributes.foldl writeAttribute b).text = b.text ++ attributes.flatMap attributeText := by
  induction attributes generalizing b with
  | nil => simp
  | cons a attributes ih =>
    rw [List.foldl_cons, ih, text_writeAttribute, List.flatMap_cons, List.append_assoc]

lemma width_foldl_writeAttribute : (attributes.foldl writeAttribute b).width = b.width := by
  induction attributes generalizing b with
  | nil => rfl
  | cons a attributes ih => rw [List.foldl_cons, ih, width_writeAttribute]

@[simp] lemma text_writeOpening :
    (writeOpening name attributes b).text = b.text ++ openingTag name attributes := by
  simp [writeOpening, openingTag, text_foldl_writeAttribute]

@[simp] lemma width_writeOpening : (writeOpening name attributes b).width = b.width := by
  simp [writeOpening, width_foldl_writeAttribute]

@[simp] lemma text_writeClosing :
    (writeClosing name b).text = b.text ++ closingTag name ++ ['\n'] := by
  simp [writeClosing, closingTag]

@[simp] lemma width_writeClosing : (writeClosing name b).width = b.width := by
  simp [writeClosing]

end Tags

def Adds (b : Buffer) (s : Text) : Option Obstacle → Except Obstacle Buffer → Prop
  | some what, r => r = .error what
  | none, r => ∃ c : Buffer, r = .ok c ∧ c.width = b.width ∧ c.text = b.text ++ s

namespace Adds

variable {b : Buffer} {s t u : Text} {what what' : Option Obstacle} {r : Except Obstacle Buffer}

lemma bind {k : Buffer → Except Obstacle Buffer} (hr : Adds b s what r)
    (hk : ∀ c : Buffer, c.width = b.width → Adds c t what' (k c)) :
    Adds b (s ++ t) (what.or what') (r >>= k) := by
  cases what with
  | some what =>
    obtain rfl : r = .error what := hr
    rfl
  | none =>
    obtain ⟨c, rfl, hwidth, htext⟩ := hr
    have hc := hk c hwidth
    cases what' with
    | some what => exact hc
    | none =>
      obtain ⟨d, hd, hwidth', htext'⟩ := hc
      exact ⟨d, hd, hwidth'.trans hwidth, by rw [htext', htext, List.append_assoc]⟩

lemma between {opened : Buffer} (hopened : opened.text = b.text ++ s)
    (hwidth : opened.width = b.width) (hr : Adds opened t what r) (close : Buffer → Buffer)
    (hclose : ∀ c : Buffer, c.width = b.width →
      (close c).width = c.width ∧ (close c).text = c.text ++ u) :
    Adds b (s ++ (t ++ u)) what (r >>= fun c => pure (close c)) := by
  have hend : ∀ c : Buffer, c.width = opened.width → Adds c u none (pure (close c)) :=
    fun c hc => ⟨close c, rfl, hclose c (hc.trans hwidth)⟩
  have hall := hr.bind hend
  rw [Option.or_none] at hall
  cases what with
  | some what => exact hall
  | none =>
    obtain ⟨c, hc, hwidth', htext⟩ := hall
    exact ⟨c, hc, hwidth'.trans hwidth, by rw [htext, hopened, List.append_assoc]⟩

lemma checked (hr : Adds b s what r) (limit level : Nat) :
    Adds b s ((tooDeep? limit level).or what) (checkLevel limit level >>= fun _ => r) := by
  unfold tooDeep? checkLevel
  split
  · rfl
  · exact hr

end Adds

lemma adds_write_tag (level : Nat) (name : Text) (attributes : List (Attribute ℓ))
    (children : List (Element ℓ)) (location : ℓ)
    (h : ∀ b : Buffer, Adds b (layoutAll b.width voids (level + 1) children)
      (firstObstacleAll limit (level + 1) children)
      (writeAll limit voids (level + 1) children b)) (b : Buffer) :
    Adds b (layout b.width voids level (.tag name attributes children location))
      (firstObstacle limit level (.tag name attributes children location))
      (write limit voids level (.tag name attributes children location) b) := by
  let opened := writeOpening name attributes (b.indent level)
  have htext : opened.text = b.text ++ (pad b.width level ++ openingTag name attributes) := by
    simp [opened]
  have hline : opened.newline.text =
      b.text ++ (pad b.width level ++ openingTag name attributes ++ ['\n']) := by simp [opened]
  have hwidth : opened.width = b.width := by simp [opened]
  have hwritten := h opened
  have hwrittenLine := h opened.newline
  rw [Buffer.width_newline, hwidth] at hwrittenLine
  rw [hwidth] at hwritten
  rw [firstObstacle, layout, write]
  apply Adds.checked
  by_cases hv : name ∈ voids
  · have hvoid := Adds.between (u := []) hline hwidth hwrittenLine
      id fun c _ => ⟨rfl, (List.append_nil _).symm⟩
    simpa [hv, opened] using hvoid
  · cases hchildren : children.isEmpty with
    | true =>
      have hempty := Adds.between (u := closingTag name ++ ['\n']) htext hwidth hwritten
        (writeClosing name) fun c _ => ⟨by simp, by simp⟩
      obtain rfl : children = [] := List.isEmpty_iff.mp hchildren
      simpa [hv, layoutAll, opened] using hempty
    | false =>
      have hfull := Adds.between (u := pad b.width level ++ closingTag name ++ ['\n']) hline hwidth
        hwrittenLine (fun c => writeClosing name (c.indent level))
        fun c hc => ⟨by simp, by simp [hc]⟩
      simpa [hv, hchildren, opened] using hfull

lemma adds_line (level : Nat) (value : Text) (b : Buffer) :
    Adds b (pad b.width level ++ value ++ ['\n']) (tooDeep? limit level)
      (checkLevel limit level >>= fun _ => pure (b.line level value)) := by
  have hline : Adds b (pad b.width level ++ value ++ ['\n']) none (pure (b.line level value)) :=
    ⟨b.line level value, rfl, by simp [Buffer.line], by simp [Buffer.line]⟩
  simpa using hline.checked limit level

mutual

theorem adds_write (level : Nat) : ∀ (e : Element ℓ) (b : Buffer),
    Adds b (layout b.width voids level e) (e.firstObstacle limit level)
      (write limit voids level e b)
  | .text value _, b | .raw value _, b => adds_line limit level value b
  | .foreign _, _ => rfl
  | .tag name attributes children location, b =>
    adds_write_tag limit voids level name attributes children location
      (adds_writeAll (level + 1) children) b

theorem adds_writeAll (level : Nat) : ∀ (es : List (Element ℓ)) (b : Buffer),
    Adds b (layoutAll b.width voids level es) (firstObstacleAll limit level es)
      (writeAll limit voids level es b)
  | [], b => ⟨b, rfl, rfl, by simp [layoutAll]⟩
  | e :: es, b => by
    rw [layoutAll, firstObstacleAll, writeAll]
    refine (adds_write level e b).bind fun c hc => ?_
    rw [← hc]
    exact adds_writeAll level es c

end

lemma render_eq (es : List (Element ℓ)) :
    render limit voids width es =
      (firstObstacleAll limit 0 es).elim (.ok (layoutAll width voids 0 es)) .error := by
  have h := adds_writeAll limit voids 0 es { width }
  rw [render]
  cases hwhat : firstObstacleAll limit 0 es with
  | some what =>
    rw [hwhat] at h
    obtain h : writeAll limit voids 0 es { width } = .error what := h
    rw [h]
    rfl
  | none =>
    rw [hwhat] at h
    obtain ⟨c, hc, -, htext⟩ := h
    rw [hc]
    exact congrArg Except.ok htext

end Html

open Element Html

variable {ℓ : Type} {limit : Nat} {s : Settings} {es : List (Element ℓ)}

lemma renderWithin_eq {width : Nat} (h : Settings.spaces s.indentWidth = .ok width)
    (es : List (Element ℓ)) :
    renderWithin limit s es = (firstObstacleAll limit 0 es).elim
      (.ok (layoutAll width s.voidElements 0 es)) fun what => .error (.obstacle what) := by
  rw [renderWithin, h]
  change (Html.render limit s.voidElements width es).mapError Failure.obstacle = _
  rw [render_eq]
  cases firstObstacleAll limit 0 es <;> rfl

lemma renderWithin_of_spaces_error {fault : Settings.WidthFault}
    (h : Settings.spaces s.indentWidth = .error fault) (es : List (Element ℓ)) :
    renderWithin limit s es = .error (.width fault) := by
  rw [renderWithin, h]
  rfl

lemma renderWithin_eq_ok_iff {html : Text} :
    renderWithin limit s es = .ok html ↔
      ∃ width, Settings.spaces s.indentWidth = .ok width ∧ firstForeignAll es = none ∧
        (es = [] ∨ maxDepth es < limit) ∧ layoutAll width s.voidElements 0 es = html := by
  cases hwidth : Settings.spaces s.indentWidth with
  | error fault => simp [renderWithin_of_spaces_error hwidth]
  | ok width =>
    rw [renderWithin_eq hwidth]
    cases hwhat : firstObstacleAll limit 0 es with
    | none =>
      obtain ⟨hforeign, hdepth⟩ := firstObstacleAll_eq_none_iff.mp hwhat
      simp [hforeign, hdepth]
    | some what =>
      have hsome : firstObstacleAll limit 0 es ≠ none := by simp [hwhat]
      rw [Ne, firstObstacleAll_eq_none_iff] at hsome
      constructor
      · intro h
        cases h
      · rintro ⟨-, -, hforeign, hdepth, -⟩
        exact (hsome ⟨hforeign, hdepth⟩).elim

end BraceMarkup
