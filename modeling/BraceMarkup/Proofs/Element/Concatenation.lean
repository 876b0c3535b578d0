import BraceMarkup.Proofs.Element.Wording
import BraceMarkup.Proofs.Html.Layout

namespace BraceMarkup

namespace Token

def EndsInBlock (s : Text) : Prop :=
  ∃ a body ws, s = a ++ '/' :: '*' :: body ∧ Lexes a ws ('/' :: '*' :: body) ∧
    ¬ ['*', '/'] <:+: body

lemma lexes_newline {ps : List Piece} (h : Fitting ps []) (hs : ¬ EndsInBlock (joined ps))
    (u : Text) : Lexes (joined ps ++ ['\n']) (words ps) u := by
  rcases List.eq_nil_or_concat ps with rfl | ⟨qs, p, rfl⟩
  · exact .skipped (.blank u (by simp))
  · rw [List.concat_eq_append] at h hs ⊢
    obtain ⟨hqs, hp, -⟩ := fitting_append.mp h
    rcases lexes_newline_or_block hp with hline | ⟨body, rfl, hb⟩
    · rw [words_append]
      exact h.lexes_concat (hline u)
    · refine (hs ⟨joined qs, body, words qs, ?_, ⟨qs, ?_, rfl, rfl⟩, hb⟩).elim
      · simp [Piece.text]
      · simpa [Piece.text] using hqs

end Token

namespace Cursor

open Token

lemma drain_append_line {s t : Text} (hs : (ofText s).drain.fault = none)
    (ht : (ofText t).drain.fault = none) (hblock : ¬ EndsInBlock s) :
    (ofText (s ++ '\n' :: t)).drain.fault = none ∧
      (ofText (s ++ '\n' :: t)).drain.tokens.map word =
        ((ofText s).drain.tokens ++ (ofText t).drain.tokens).map word := by
  obtain ⟨ps, rfl, hps, hpt⟩ := exists_pieces_of_fault_eq_none hs
  obtain ⟨qs, rfl, hqs, hqt⟩ := exists_pieces_of_fault_eq_none ht
  have hline := lexes_newline hps hblock (joined qs ++ [])
  have hall := hline.append ⟨qs, hqs, rfl, rfl⟩
  rw [List.append_assoc, List.singleton_append] at hall
  rw [hpt, hqt, List.map_append, map_word_located, map_word_located]
  exact drain_ofText_of_lexes hall

end Cursor

namespace Grammar

open Feed

variable {σ α β : Type} [TokenSource σ]

def Settled (x : Building σ α) (w : List Token) (a : α) : Prop :=
  (∀ rest ending, Ahead (· ≠ .semicolon) rest ending →
    Runs x (w ++ rest) ending (.ok (a, rest))) ∨
  ∀ rest ending, Ahead (· ≠ .semicolon) rest ending →
    ∃ fault, fault.cause = .nestingTooDeep ∧ Runs x (w ++ rest) ending (.error fault)

def SettledMany (step : Building σ (Option α)) (w : List Token) (as : List α) : Prop :=
  (∀ rest ending o, Ahead (· ≠ .semicolon) rest ending → RunsMany step rest ending o →
    RunsMany step (w ++ rest) ending (o.map fun p => (as ++ p.1, p.2))) ∨
  ∀ rest ending, Ahead (· ≠ .semicolon) rest ending →
    ∃ fault, fault.cause = .nestingTooDeep ∧ RunsMany step (w ++ rest) ending (.error fault)

lemma Settled.trans {x : Building σ α} {y : Building σ β} {w w' : List Token} {a : α} {b : β}
    (h : Settled x w a)
    (hok : ∀ rest ending, Ahead (· ≠ .semicolon) rest ending →
      Runs x (w ++ rest) ending (.ok (a, rest)) → Runs y (w' ++ rest) ending (.ok (b, rest)))
    (herror : ∀ rest ending fault,
      Runs x (w ++ rest) ending (.error fault) → Runs y (w' ++ rest) ending (.error fault)) :
    Settled y w' b := by
  rcases h with h | h
  · exact .inl fun rest ending hrest => hok rest ending hrest (h rest ending hrest)
  · right
    intro rest ending hrest
    obtain ⟨fault, hc, hrun⟩ := h rest ending hrest
    exact ⟨fault, hc, herror rest ending fault hrun⟩

variable {X : Building σ (Option (Element Span))} {ts : List Token} {e : Element Span}
  {es : List (Element Span)}

lemma settled_child? (he : ElementTree ts e) (h : Settled X ts (some e)) :
    Settled (child? X) ts (some e) := by
  obtain ⟨t, us, rfl, ht⟩ := he.starts
  have hhead (rest : List Token) (ending : Ending) :
      Ahead (· ≠ .rightBrace) (t :: us ++ rest) ending := (ne_of_startsElement ht).2.2.1
  apply h.trans
  · intro rest ending _ hrun
    exact runs_child?_some (hhead rest ending) (runs_required_some hrun)
  · intro rest ending fault hrun
    exact runs_child?_some (o := .error fault) (hhead rest ending) hrun.bind_error

lemma settledMany_of_trees {step : Building σ (Option (Element Span))}
    (hstep : ∀ {ts e}, ElementTree ts e → Settled step ts (some e)) (h : ElementTrees ts es) :
    SettledMany step ts es := by
  induction es generalizing ts with
  | nil =>
    cases h
    refine .inl fun rest ending o _ hrun => ?_
    cases o with
    | ok p => exact hrun
    | error fault => exact hrun
  | cons e es ih =>
    cases h with
    | @cons ts us _ _ he hes =>
      have hnext {rest : List Token} {ending : Ending} (hrest : Ahead (· ≠ .semicolon) rest ending) :
          Ahead (· ≠ .semicolon) (us ++ rest) ending :=
        hes.ahead (fun _ hk => (ne_of_startsElement hk).2.2.2) hrest
      rw [SettledMany]
      simp only [List.append_assoc]
      rcases hstep he with hfirst | hfirst
      · rcases ih hes with hmore | hmore
        · left
          intro rest ending o hrest hrun
          have hall := RunsMany.cons (hfirst _ _ (hnext hrest)) (length_lt_of_elementTree he _)
            (hmore rest ending o hrest hrun)
          cases o with
          | ok p => exact hall
          | error fault => exact hall
        · right
          intro rest ending hrest
          obtain ⟨fault, hc, hrun⟩ := hmore rest ending hrest
          exact ⟨fault, hc,
            RunsMany.cons (hfirst _ _ (hnext hrest)) (length_lt_of_elementTree he _) hrun⟩
      · right
        intro rest ending hrest
        obtain ⟨fault, hc, hrun⟩ := hfirst _ _ (hnext hrest)
        exact ⟨fault, hc, .error hrun⟩

lemma settled_leaf {t : Token} (h : LeafTree t e) (limit : Nat) :
    Settled (element limit : Building σ _) [t] (some e) := by
  cases limit with
  | zero => exact .inr fun rest ending _ => ⟨_, rfl, runs_element_zero (t :: rest) ending⟩
  | succ limit => exact .inl fun rest ending _ => runs_element_leaf h limit

lemma settled_body {limit : Nat}
    (hlimit : ∀ {ts e}, ElementTree ts e → Settled (element limit : Building σ _) ts (some e))
    (h : BodyTree ts es) : Settled (body (element limit : Building σ _)) ts es := by
  cases h with
  | semicolon hs => exact .inl fun rest ending _ => runs_body_semicolon hs rest
  | @braces l r ts _ hl hes hr =>
    have hrest (rest : List Token) (ending : Ending) :
        Ahead (· ≠ .semicolon) (r :: rest) ending := by simp [Ahead, hr]
    rw [Settled]
    simp only [List.cons_append, List.append_assoc, List.nil_append]
    rcases settledMany_of_trees (fun he => settled_child? he (hlimit he)) hes with h | h
    · left
      intro rest ending _
      have hend : RunsMany (child? (element limit : Building σ _)) (r :: rest) ending
          (.ok ([], r :: rest)) := .nil (runs_child?_none hr)
      have hall := h _ _ _ (hrest rest ending) hend
      rw [Except.map, List.append_nil] at hall
      exact runs_body_braces hl hall
    · right
      intro rest ending _
      obtain ⟨fault, hc, hrun⟩ := h _ _ (hrest rest ending)
      exact ⟨fault, hc, runs_body_braces_error hl hrun⟩
  | @leaf t e h =>
    obtain ⟨-, hl, -, hs⟩ := ne_of_startsElement h.starts
    apply (settled_leaf h limit).trans
    · intro rest ending hrest hrun
      exact runs_body_single hs hl (runs_required_some hrun) hrest
    · intro rest ending fault hrun
      exact runs_body_error hs hl hrun.bind_error
  | @leafSemicolon t s e h hsemi =>
    obtain ⟨-, hl, -, hs⟩ := ne_of_startsElement h.starts
    cases limit with
    | zero =>
      refine .inr fun rest ending _ => ⟨⟨.nestingTooDeep, t.span⟩, rfl, ?_⟩
      exact runs_body_error hs hl (runs_element_zero (t :: s :: rest) ending).bind_error
    | succ limit =>
      refine .inl fun rest ending _ => ?_
      exact runs_body_single_semicolon hs hl (runs_required_some (runs_element_leaf h limit)) hsemi

lemma settled_element (limit : Nat) (h : ElementTree ts e) :
    Settled (element limit : Building σ _) ts (some e) := by
  induction limit generalizing ts e with
  | zero =>
    obtain ⟨t, us, rfl, _⟩ := h.starts
    exact .inr fun rest ending _ => ⟨_, rfl, runs_element_zero (t :: us ++ rest) ending⟩
  | succ limit ih =>
    cases h with
    | leaf h => exact settled_leaf h (limit + 1)
    | @tag n as bs attributes children hn has hbs =>
      have ha (rest : List Token) (ending : Ending) : RunsMany (tagAttribute? : Building σ _)
          (as ++ (bs ++ rest)) ending (.ok (attributes, bs ++ rest)) :=
        runsMany_tagAttribute? has hbs.ahead.1 hbs.ahead.2
      apply (settled_body ih hbs).trans
      · intro rest ending _ hrun
        rw [List.cons_append, List.cons_append, List.append_assoc]
        exact runs_element_tag hn (runs_tag hn (ha rest ending) hrun)
      · intro rest ending fault hrun
        rw [List.cons_append, List.cons_append, List.append_assoc]
        exact runs_element_tag (o := .error fault) hn
          (runs_tag (o := .error fault) hn (ha rest ending) hrun)

section Foreign

open Element

lemma firstForeignAll_map_raw (lines : List Text) (span : Span) :
    firstForeignAll (lines.map (raw · span)) = none := by
  induction lines with
  | nil => rfl
  | cons line lines ih => exact ih

lemma LeafTree.firstForeign {t : Token} (h : LeafTree t e) : e.firstForeign = none := by
  cases h with
  | string | html => rfl
  | script | style => exact firstForeignAll_map_raw _ _

mutual

theorem ElementTree.firstForeign {ts : List Token} {e : Element Span} :
    ElementTree ts e → e.firstForeign = none
  | .leaf h => h.firstForeign
  | .tag _ _ h => h.firstForeignAll

theorem BodyTree.firstForeignAll {ts : List Token} {es : List (Element Span)} :
    BodyTree ts es → Element.firstForeignAll es = none
  | .semicolon _ => rfl
  | .braces _ h _ => h.firstForeignAll
  | .leaf h | .leafSemicolon h _ => by simp [Element.firstForeignAll, h.firstForeign]

theorem ElementTrees.firstForeignAll {ts : List Token} {es : List (Element Span)} :
    ElementTrees ts es → Element.firstForeignAll es = none
  | .nil => rfl
  | .cons h h' => by simp [Element.firstForeignAll, h.firstForeign, h'.firstForeignAll]

end

end Foreign

end Grammar

open Feed Grammar Element Html

variable {limit : Nat} {s t : Text} {es fs : List (Element Span)}

lemma runsMany_append_of_parseWithin (h : parseWithin limit s = .ok es) {rest : List Token}
    {ending : Ending} {o : Except Fault (List (Element Span) × List Token)}
    (hrest : Ahead (· ≠ .semicolon) rest ending)
    (ho : RunsMany (element limit : Building Recording _) rest ending o) :
    RunsMany (element limit : Building Recording _) ((Cursor.ofText s).drain.tokens ++ rest) ending
      (o.map fun p => (es ++ p.1, p.2)) := by
  obtain ⟨hf, hes, -⟩ := elementsWithin_of_parseWithin h
  rcases settledMany_of_trees (settled_element (σ := Recording) limit) hes with hall | hdeep
  · exact hall rest ending o hrest ho
  · obtain ⟨fault, -, hrun⟩ := hdeep [] (.ok (Cursor.ofText s).drain.cursor.span) trivial
    rw [List.append_nil] at hrun
    have herror := evaluate_recording (runs_document_error hrun)
    rw [parseWithin_eq_evaluate, ofCursor_of_fault_eq_none hf, herror] at h
    cases h

lemma parseWithin_append_line (hs : parseWithin limit s = .ok es) (ht : parseWithin limit t = .ok fs)
    (hblock : ¬ Token.EndsInBlock s) :
    ∃ gs, parseWithin limit (s ++ '\n' :: t) = .ok gs ∧ bareAll gs = bareAll (es ++ fs) := by
  obtain ⟨hsf, -⟩ := elementsWithin_of_parseWithin hs
  obtain ⟨htf, hfs, -⟩ := elementsWithin_of_parseWithin ht
  obtain ⟨hf, hwords⟩ := Cursor.drain_append_line hsf htf hblock
  obtain ⟨k, rfl⟩ := Nat.exists_eq_add_one_of_ne_zero (pos_of_parseWithin hs).ne'
  let span := (Cursor.ofText (s ++ '\n' :: t)).drain.cursor.span
  have hend : RunsMany (element (k + 1) : Building Recording _) [] (.ok span) (.ok ([], [])) :=
    .nil (runs_element_none trivial)
  have hnil : Ahead (· ≠ .semicolon) [] (.ok span) := trivial
  have hsecond := runsMany_append_of_parseWithin ht hnil hend
  have hnext := hfs.ahead (fun _ hk => (ne_of_startsElement hk).2.2.2) hnil
  have hboth := runsMany_append_of_parseWithin hs hnext hsecond
  simp only [Except.map, List.append_nil] at hboth
  have hsame := sameOutcome_evaluate (k + 1) span span hwords
  rw [evaluate_recording (runs_document hboth), ← ofCursor_of_fault_eq_none hf,
    ← parseWithin_eq_evaluate] at hsame
  cases hall : parseWithin (k + 1) (s ++ '\n' :: t) with
  | ok gs =>
    rw [hall] at hsame
    exact ⟨gs, rfl, hsame⟩
  | error fault =>
    rw [hall] at hsame
    exact hsame.elim

lemma transpile_of_parse (settings : Settings) (h : parse s = .ok es) :
    transpile settings s = ((Settings.spaces settings.indentWidth).mapError Failure.width).map
      (layoutAll · settings.voidElements 0 es) := by
  obtain ⟨-, hes, -⟩ := elementsWithin_of_parseWithin h
  have hdepth : maxDepth es < levelLimit :=
    (maxDepth_le_of_parseWithin h).trans_lt (by decide)
  have hclear := firstObstacleAll_eq_none_iff.mpr ⟨hes.firstForeignAll, .inr hdepth⟩
  rw [transpile, h]
  change renderWithin levelLimit settings es = _
  cases hwidth : Settings.spaces settings.indentWidth with
  | error fault => exact renderWithin_of_spaces_error hwidth es
  | ok width =>
    rw [renderWithin_eq hwidth, hclear]
    rfl

/-- Two texts that parse still do when they are put on lines of their own, unless the first ends
inside a block comment: the trees stand one after another, and so does the HTML under any settings.
If the indent width is a number of spaces, there is HTML. -/
theorem transpile_append_line (s t : Text) (hblock : ¬ Token.EndsInBlock s) :
    (∀ limit es fs, parseWithin limit s = .ok es → parseWithin limit t = .ok fs →
      ∃ gs, parseWithin limit (s ++ '\n' :: t) = .ok gs ∧
        bareAll gs = bareAll es ++ bareAll fs) ∧
    ∀ es fs, parse s = .ok es → parse t = .ok fs → ∀ settings : Settings,
      transpile settings (s ++ '\n' :: t) =
        (do return (← transpile settings s) ++ (← transpile settings t)) ∧
      ∀ width, Settings.spaces settings.indentWidth = .ok width →
        ∃ x y, transpile settings s = .ok x ∧ transpile settings t = .ok y ∧
          transpile settings (s ++ '\n' :: t) = .ok (x ++ y) := by
  have happend (es fs : List (Element Span)) : bareAll (es ++ fs) = bareAll es ++ bareAll fs := by
    simp only [bareAll_eq_map, List.map_append]
  constructor
  · intro limit es fs hs ht
    rw [← happend]
    exact parseWithin_append_line hs ht hblock
  · intro es fs hs ht settings
    obtain ⟨gs, hgs, hbare⟩ := parseWithin_append_line hs ht hblock
    have hlines (width : Nat) : layoutAll width settings.voidElements 0 gs =
        layoutAll width settings.voidElements 0 es ++
          layoutAll width settings.voidElements 0 fs := by
      rw [← layoutAll_bareAll, hbare, layoutAll_bareAll, layoutAll_append]
    rw [transpile_of_parse settings hgs, transpile_of_parse settings hs,
      transpile_of_parse settings ht]
    cases Settings.spaces settings.indentWidth with
    | error fault => exact ⟨rfl, nofun⟩
    | ok width =>
      have hall := congrArg (Except.ok (ε := Failure)) (hlines width)
      exact ⟨hall, fun _ _ => ⟨_, _, rfl, rfl, hall⟩⟩

theorem transpile_append_line_escape :
    ¬ Token.EndsInBlock "p 'a' \\".toList ∧ (∃ es, parse "p 'a' \\".toList = .ok es) ∧
    (∃ fs, parse "b id \"c\" /* d".toList = .ok fs) ∧
    (transpile {} "p 'a' \\\nb id \"c\" /* d".toList).toOption =
      some "<p>\n    a\n</p>\n<b id>\n    c\n</b>\n".toList := by
  have hblock : ¬ Token.EndsInBlock "p 'a' \\".toList := by
    rintro ⟨a, body, -, hs, -⟩
    have hslash : '/' ∈ "p 'a' \\".toList := by rw [hs]; simp
    simp at hslash
  have hs : parse "p 'a' \\".toList = .ok
      [.tag "p".toList [] [.text "a".toList ⟨2, 3, ⟨1, 3⟩, ⟨1, 5⟩⟩] ⟨0, 1, ⟨1, 1⟩, ⟨1, 1⟩⟩] := by
    decide +kernel
  have ht : parse "b id \"c\" /* d".toList = .ok
      [.tag "b".toList [⟨"id".toList, none, ⟨2, 2, ⟨1, 3⟩, ⟨1, 4⟩⟩⟩]
        [.text "c".toList ⟨5, 3, ⟨1, 6⟩, ⟨1, 8⟩⟩] ⟨0, 1, ⟨1, 1⟩, ⟨1, 1⟩⟩] := by
    decide +kernel
  obtain ⟨-, htranspile⟩ := transpile_append_line _ _ hblock
  obtain ⟨-, hwidth⟩ := htranspile _ _ hs ht {}
  obtain ⟨x, y, hx, hy, hall⟩ := hwidth 4 rfl
  have hx' : (transpile {} "p 'a' \\".toList).toOption = some "<p>\n    a\n</p>\n".toList := by
    decide +kernel
  have hy' : (transpile {} "b id \"c\" /* d".toList).toOption =
      some "<b id>\n    c\n</b>\n".toList := by decide +kernel
  refine ⟨hblock, ⟨_, hs⟩, ⟨_, ht⟩, ?_⟩
  rw [hx] at hx'
  rw [hy] at hy'
  cases hx'
  cases hy'
  exact congrArg Except.toOption hall

end BraceMarkup
