import BraceMarkup.Token.Cursor
import Mathlib.Data.List.TakeWhile
import Mathlib.Tactic

/-! The lexical grammar: which texts are skipped, which are lexemes, and how the text that follows
decides it. What stands at the head of a text is read exactly as the grammar says. -/

namespace BraceMarkup.Token

inductive Balanced (opening closing : Char) : Text → Prop
  | nil : Balanced opening closing []
  | other {c : Char} {s : Text} : c ≠ opening → c ≠ closing → Balanced opening closing s →
      Balanced opening closing (c :: s)
  | nested {s t : Text} : Balanced opening closing s → Balanced opening closing t →
      Balanced opening closing (opening :: s ++ closing :: t)

/-- The text is skipped when `rest` follows it. -/
inductive Skipped : Text → (rest : Text) → Prop
  | blank {c : Char} (rest : Text) : c ∈ ['\n', '\r', '\t', ' '] → Skipped [c] rest
  | escape (c : Char) (rest : Text) : Skipped ['\\', c] rest
  | lastEscape : Skipped ['\\'] []
  | line {body : Text} (rest : Text) : '\n' ∉ body → Skipped ('/' :: '/' :: body ++ ['\n']) rest
  | lastLine {body : Text} : '\n' ∉ body → Skipped ('/' :: '/' :: body) []
  | block {body : Text} (rest : Text) : ¬ ['*', '/'] <:+: body →
      Skipped ('/' :: '*' :: body ++ ['*', '/']) rest
  | lastBlock {body : Text} : ¬ ['*', '/'] <:+: body → Skipped ('/' :: '*' :: body) []

def EndsName (name rest : Text) : Prop :=
  (∀ c ∈ rest.head?, isNameChar c = false) ∧
    (name = ['j', 's'] ∨ name = ['c', 's', 's'] → rest.head? ≠ some openBrace)

/-- The text is a lexeme of the given kind when `rest` follows it. -/
inductive Lexeme : Kind → Text → (rest : Text) → Prop
  | name {c : Char} {cs rest : Text} : isNameStart c = true → (∀ d ∈ cs, isNameChar d = true) →
      EndsName (c :: cs) rest → Lexeme .name (c :: cs) rest
  | string {quote : Char} {body : Text} (rest : Text) : quote = '"' ∨ quote = '\'' →
      quote ∉ body → Lexeme .string (quote :: body ++ [quote]) rest
  | equal (rest : Text) : Lexeme .equal ['='] rest
  | leftBrace (rest : Text) : Lexeme .leftBrace [openBrace] rest
  | rightBrace (rest : Text) : Lexeme .rightBrace [closeBrace] rest
  | semicolon (rest : Text) : Lexeme .semicolon [';'] rest
  | html {body : Text} (rest : Text) : Balanced '<' '>' body →
      Lexeme .html ('<' :: body ++ ['>']) rest
  | script {body : Text} (rest : Text) : Balanced openBrace closeBrace body →
      Lexeme .script ('j' :: 's' :: openBrace :: body ++ [closeBrace]) rest
  | style {body : Text} (rest : Text) : Balanced openBrace closeBrace body →
      Lexeme .style ('c' :: 's' :: 's' :: openBrace :: body ++ [closeBrace]) rest

lemma Skipped.ne_nil {x rest : Text} (h : Skipped x rest) : x ≠ [] := by
  cases h <;> simp

lemma Lexeme.ne_nil {kind : Kind} {x rest : Text} (h : Lexeme kind x rest) : x ≠ [] := by
  cases h <;> simp

section Brackets

variable {opening closing : Char}

lemma balanced_opening (depth : Nat) (cs : Text) :
    balanced opening closing depth (opening :: cs) =
      (balanced opening closing (depth + 1) cs).map (.map (opening :: ·) id) := by
  rw [balanced.eq_def]
  exact if_pos rfl

lemma balanced_other {c : Char} (ho : c ≠ opening) (hc : c ≠ closing) (depth : Nat) (cs : Text) :
    balanced opening closing depth (c :: cs) =
      (balanced opening closing depth cs).map (.map (c :: ·) id) := by
  rw [balanced.eq_def]
  exact (if_neg ho).trans (if_neg hc)

lemma balanced_closing (hne : opening ≠ closing) (depth : Nat) (cs : Text) :
    balanced opening closing (depth + 1) (closing :: cs) =
      (balanced opening closing depth cs).map (.map (closing :: ·) id) := by
  rw [balanced.eq_def]
  exact (if_neg hne.symm).trans (if_pos rfl)

lemma balanced_last (hne : opening ≠ closing) (cs : Text) :
    balanced opening closing 0 (closing :: cs) = some ([closing], cs) := by
  rw [balanced.eq_def]
  exact (if_neg hne.symm).trans (if_pos rfl)

lemma balanced_append (hne : opening ≠ closing) {s : Text} (hs : Balanced opening closing s)
    (depth : Nat) (t : Text) :
    balanced opening closing depth (s ++ t) =
      (balanced opening closing depth t).map (.map (s ++ ·) id) := by
  induction hs generalizing depth t with
  | nil => exact Option.map_id_apply.symm
  | @other c s ho hc _ ih =>
    rw [List.cons_append, balanced_other ho hc, ih, Option.map_map]
    rfl
  | @nested s u _ _ ihs ihu =>
    rw [List.cons_append, List.cons_append, List.append_assoc, List.cons_append, balanced_opening,
      ihs, balanced_closing hne, ihu, Option.map_map, Option.map_map, Option.map_map]
    congr 1
    funext p
    simp [Prod.map]

lemma balanced_complete (hne : opening ≠ closing) {s : Text} (hs : Balanced opening closing s)
    (rest : Text) :
    balanced opening closing 0 (s ++ closing :: rest) = some (s ++ [closing], rest) := by
  rw [balanced_append hne hs, balanced_last hne]
  rfl

inductive Closes (opening closing : Char) : (depth : Nat) → Text → Prop
  | last {s : Text} : Balanced opening closing s → Closes opening closing 0 (s ++ [closing])
  | more {depth : Nat} {s t : Text} : Balanced opening closing s → Closes opening closing depth t →
      Closes opening closing (depth + 1) (s ++ closing :: t)

lemma Closes.cons {c : Char} (ho : c ≠ opening) (hc : c ≠ closing) {depth : Nat} {s : Text}
    (h : Closes opening closing depth s) : Closes opening closing depth (c :: s) := by
  cases h with
  | last hs => exact .last (.other ho hc hs)
  | more hs ht => exact .more (.other ho hc hs) ht

lemma Closes.wrap {depth : Nat} {s : Text} (h : Closes opening closing (depth + 1) s) :
    Closes opening closing depth (opening :: s) := by
  cases h with
  | more hs ht =>
    cases ht with
    | last ht => simpa using Closes.last (.nested hs ht)
    | more ht hu => simpa using Closes.more (.nested hs ht) hu

lemma closes_of_balanced {depth : Nat} {s body rest : Text}
    (h : balanced opening closing depth s = some (body, rest)) :
    Closes opening closing depth body := by
  induction s generalizing depth body with
  | nil => simp [balanced] at h
  | cons c cs ih =>
    have step {d : Nat}
        (hd : (balanced opening closing d cs).map (.map (c :: ·) id) = some (body, rest)) :
        ∃ b, body = c :: b ∧ Closes opening closing d b := by
      obtain ⟨⟨b, r⟩, hb, he⟩ := Option.map_eq_some_iff.mp hd
      obtain ⟨rfl, rfl⟩ := Prod.mk.inj he
      exact ⟨b, rfl, ih hb⟩
    rw [balanced.eq_def] at h
    dsimp only at h
    split at h
    · next ho =>
      obtain ⟨b, rfl, hb⟩ := step h
      exact ho ▸ hb.wrap
    · next ho =>
      split at h
      · next hc =>
        subst hc
        split at h
        · obtain ⟨rfl, rfl⟩ := Prod.mk.inj (Option.some.inj h)
          exact .last .nil
        · obtain ⟨b, rfl, hb⟩ := step h
          exact .more .nil hb
      · next hc =>
        obtain ⟨b, rfl, hb⟩ := step h
        exact hb.cons ho hc

lemma balanced_sound {s body rest : Text}
    (h : balanced opening closing 0 s = some (body, rest)) :
    ∃ b, body = b ++ [closing] ∧ Balanced opening closing b := by
  cases closes_of_balanced h with
  | last hs => exact ⟨_, rfl, hs⟩

end Brackets

section Comments

lemma lineComment_complete {body : Text} (hb : '\n' ∉ body) (rest : Text) :
    lineComment (body ++ '\n' :: rest) = (body ++ ['\n'], rest) := by
  induction body with
  | nil => rfl
  | cons c cs ih =>
    have hc : c ≠ '\n' := fun h => hb (by simp [h])
    rw [List.cons_append, lineComment, if_neg hc, ih fun h => hb (List.mem_cons_of_mem c h)]
    rfl

lemma lineComment_last {body : Text} (hb : '\n' ∉ body) : lineComment body = (body, []) := by
  induction body with
  | nil => rfl
  | cons c cs ih =>
    have hc : c ≠ '\n' := fun h => hb (by simp [h])
    rw [lineComment, if_neg hc, ih fun h => hb (List.mem_cons_of_mem c h)]
    rfl

lemma skipped_lineComment (s : Text) :
    Skipped ('/' :: '/' :: (lineComment s).1) (lineComment s).2 := by
  by_cases hs : '\n' ∈ s
  · obtain ⟨body, rest, rfl, hb⟩ := List.eq_append_cons_of_mem hs
    rw [lineComment_complete hb]
    exact .line rest hb
  · rw [lineComment_last hs]
    exact .lastLine hs

lemma not_infix_of_cons {c : Char} {s t : Text} (h : ¬ t <:+: c :: s) : ¬ t <:+: s :=
  fun ht => h (List.infix_cons ht)

lemma blockComment_cons {c : Char} {cs : Text} (h : c = '*' → cs.head? ≠ some '/') :
    blockComment (c :: cs) = (blockComment cs).map (c :: ·) id := by
  rw [blockComment.eq_3]
  rintro cs' rfl rfl
  exact h rfl rfl

lemma blockComment_complete {body : Text} (hb : ¬ ['*', '/'] <:+: body) (rest : Text) :
    blockComment (body ++ '*' :: '/' :: rest) = (body ++ ['*', '/'], rest) := by
  induction body with
  | nil => rfl
  | cons c cs ih =>
    have hc : c = '*' → (cs ++ '*' :: '/' :: rest).head? ≠ some '/' := by
      rintro rfl h
      cases cs with
      | nil => simp at h
      | cons d ds =>
        obtain rfl : d = '/' := by simpa using h
        exact hb ⟨[], ds, rfl⟩
    rw [List.cons_append, blockComment_cons hc, ih (not_infix_of_cons hb)]
    rfl

lemma blockComment_last {body : Text} (hb : ¬ ['*', '/'] <:+: body) :
    blockComment body = (body, []) := by
  induction body with
  | nil => rfl
  | cons c cs ih =>
    have hc : c = '*' → cs.head? ≠ some '/' := by
      rintro rfl h
      cases cs with
      | nil => simp at h
      | cons d ds =>
        obtain rfl : d = '/' := by simpa using h
        exact hb ⟨[], ds, rfl⟩
    rw [blockComment_cons hc, ih (not_infix_of_cons hb)]
    rfl

lemma exists_first_endMark {s : Text} (h : ['*', '/'] <:+: s) :
    ∃ body rest, s = body ++ '*' :: '/' :: rest ∧ ¬ ['*', '/'] <:+: body := by
  induction s with
  | nil => simp at h
  | cons c cs ih =>
    by_cases hp : ['*', '/'] <+: c :: cs
    · obtain ⟨rest, hr⟩ := hp
      exact ⟨[], rest, hr.symm, by simp⟩
    · obtain ⟨body, rest, rfl, hb⟩ := ih ((List.infix_cons_iff.mp h).resolve_left hp)
      refine ⟨c :: body, rest, rfl, fun hi => ?_⟩
      rcases List.infix_cons_iff.mp hi with hpre | hinf
      · exact hp (hpre.trans (List.prefix_append _ _))
      · exact hb hinf

lemma skipped_blockComment (s : Text) :
    Skipped ('/' :: '*' :: (blockComment s).1) (blockComment s).2 := by
  by_cases hs : ['*', '/'] <:+: s
  · obtain ⟨body, rest, rfl, hb⟩ := exists_first_endMark hs
    rw [blockComment_complete hb]
    exact .block rest hb
  · rw [blockComment_last hs]
    exact .lastBlock hs

end Comments

namespace Reading

lemma first_of_skipped {x rest : Text} (h : Skipped x rest) :
    first (x ++ rest) = .skipped x rest := by
  cases h with
  | blank _ hc => exact if_pos hc
  | escape c _ => rfl
  | lastEscape => rfl
  | line _ hb =>
    show ofComment ('/' :: (_ ++ ['\n'] ++ rest)) = _
    simp [ofComment, lineComment_complete hb]
  | lastLine hb =>
    show ofComment ('/' :: (_ ++ [])) = _
    simp [ofComment, lineComment_last hb]
  | block _ hb =>
    show ofComment ('*' :: (_ ++ ['*', '/'] ++ rest)) = _
    simp [ofComment, blockComment_complete hb]
  | lastBlock hb =>
    show ofComment ('*' :: (_ ++ [])) = _
    simp [ofComment, blockComment_last hb]

lemma ofString_complete {quote : Char} {body : Text} (hb : quote ∉ body) (rest : Text) :
    ofString quote (body ++ quote :: rest) = .token .string (quote :: body ++ [quote]) rest := by
  have hne : ∀ c ∈ body, (c != quote) = true := by
    intro c hc
    simpa using fun h : c = quote => hb (h ▸ hc)
  rw [ofString, List.dropWhile_append_of_pos hne, List.takeWhile_append_of_pos hne]
  simp

lemma embeddedKind?_eq_some {name : Text} {kind : Kind} (h : embeddedKind? name = some kind) :
    name = ['j', 's'] ∧ kind = .script ∨ name = ['c', 's', 's'] ∧ kind = .style := by
  rw [embeddedKind?] at h
  split at h
  · next hn => exact .inl ⟨hn, (Option.some.inj h).symm⟩
  · split at h
    · next hn => exact .inr ⟨hn, (Option.some.inj h).symm⟩
    · cases h

lemma ofName_of_endsName {name rest : Text} (h : EndsName name rest) :
    ofName name rest = .token .name name rest := by
  rw [ofName.eq_def]
  split
  · next kind c cs hk =>
    have hkey := (embeddedKind?_eq_some hk).imp And.left And.left
    have hc : c ≠ openBrace := by simpa using h.2 hkey
    rw [if_neg hc]
  · rfl

lemma first_of_nameStart {c : Char} (hc : isNameStart c = true) (cs : Text) :
    first (c :: cs) = ofName (c :: cs.takeWhile isNameChar) (cs.dropWhile isNameChar) := by
  have hne : ∀ d ∈ blanks ++ quotes ++ marks.map Prod.fst ++ ['/', '<', '\\'], c ≠ d := by
    rintro d hd rfl
    have hno : (blanks ++ quotes ++ marks.map Prod.fst ++ ['/', '<', '\\']).all
        (!isNameStart ·) = true := by decide
    simpa [hc] using List.all_eq_true.mp hno c hd
  have hb : c ∉ blanks := fun h => hne c (by simp [h]) rfl
  have hq : c ∉ quotes := fun h => hne c (by simp [h]) rfl
  have hm : marks.lookup c = none := by
    refine List.lookup_eq_none_iff.mpr fun p hp => ?_
    simpa using hne p.1 (by simp only [List.mem_append, List.mem_map]; exact .inl (.inr ⟨p, hp, rfl⟩))
  rw [first, if_neg hb, if_neg hq, hm]
  dsimp only
  rw [if_neg (hne '/' (by simp)), if_neg (hne '<' (by simp)), if_neg (hne '\\' (by simp)), if_pos hc]

lemma takeWhile_nameChar {cs rest : Text} (hcs : ∀ d ∈ cs, isNameChar d = true)
    (hr : ∀ c ∈ rest.head?, isNameChar c = false) :
    (cs ++ rest).takeWhile isNameChar = cs ∧ (cs ++ rest).dropWhile isNameChar = rest := by
  rw [List.takeWhile_append_of_pos hcs, List.dropWhile_append_of_pos hcs]
  cases rest with
  | nil => simp
  | cons c r => simp [hr c rfl]

lemma ofBlock_complete {kind : Kind} {name body : Text} (hk : embeddedKind? name = some kind)
    (hb : Balanced openBrace closeBrace body) (rest : Text) :
    ofName name (openBrace :: (body ++ closeBrace :: rest)) =
      .token kind (name ++ openBrace :: (body ++ [closeBrace])) rest := by
  rw [ofName.eq_def, hk]
  dsimp only
  rw [if_pos rfl, ofBlock, balanced_complete (by decide) hb]

lemma first_of_lexeme {kind : Kind} {x rest : Text} (h : Lexeme kind x rest) :
    first (x ++ rest) = .token kind x rest := by
  cases h with
  | @name c cs _ hc hcs he =>
    obtain ⟨ht, hd⟩ := takeWhile_nameChar hcs he.1
    rw [List.cons_append, first_of_nameStart hc, ht, hd, ofName_of_endsName he]
  | @string quote body _ hq hb =>
    have hf : first (quote :: (body ++ quote :: rest)) = ofString quote (body ++ quote :: rest) := by
      rcases hq with rfl | rfl <;> rfl
    simpa using hf.trans (ofString_complete hb rest)
  | equal => rfl
  | leftBrace => rfl
  | rightBrace => rfl
  | semicolon => rfl
  | @html body _ hb =>
    have hf : ofMarkup (body ++ '>' :: rest) = .token .html ('<' :: (body ++ ['>'])) rest := by
      rw [ofMarkup, balanced_complete (by decide) hb]
    simpa using! hf
  | @script body _ hb =>
    have hk : embeddedKind? ['j', 's'] = some .script := rfl
    simpa using! ofBlock_complete hk hb rest
  | @style body _ hb =>
    have hk : embeddedKind? ['c', 's', 's'] = some .style := rfl
    simpa using! ofBlock_complete hk hb rest

def Classified : Reading → Prop
  | .skipped x rest => Skipped x rest
  | .token kind x rest => Lexeme kind x rest
  | .endless cause => cause.kind.isLexical = true
  | .stray _ => True
  | .finished => False

lemma classified_ofString {quote : Char} (hq : quote = '"' ∨ quote = '\'') (cs : Text) :
    (ofString quote cs).Classified := by
  rw [ofString]
  split
  · rfl
  · refine .string _ hq fun h => ?_
    simpa using List.mem_takeWhile_imp h

lemma classified_ofComment (cs : Text) : (ofComment cs).Classified := by
  rw [ofComment.eq_def]
  split
  · exact skipped_blockComment _
  · exact skipped_lineComment _
  · trivial

lemma classified_ofMarkup (cs : Text) : (ofMarkup cs).Classified := by
  rw [ofMarkup]
  split
  · rfl
  · next body rest h =>
    obtain ⟨b, rfl, hb⟩ := balanced_sound h
    exact .html rest hb

lemma classified_ofEscape (cs : Text) : (ofEscape cs).Classified := by
  cases cs with
  | nil => exact .lastEscape
  | cons c cs => exact .escape c cs

lemma classified_ofBlock {kind : Kind} {name : Text} (hk : embeddedKind? name = some kind)
    (cs : Text) : (ofBlock kind name cs).Classified := by
  rw [ofBlock]
  split
  · rcases embeddedKind?_eq_some hk with ⟨_, rfl⟩ | ⟨_, rfl⟩
    · rfl
    · rfl
  · next body rest h =>
    obtain ⟨b, rfl, hb⟩ := balanced_sound h
    rcases embeddedKind?_eq_some hk with ⟨rfl, rfl⟩ | ⟨rfl, rfl⟩
    · exact .script rest hb
    · exact .style rest hb

lemma classified_ofName {c : Char} {cs rest : Text} (hc : isNameStart c = true)
    (hcs : ∀ d ∈ cs, isNameChar d = true) (hr : ∀ d ∈ rest.head?, isNameChar d = false) :
    (ofName (c :: cs) rest).Classified := by
  by_cases he : EndsName (c :: cs) rest
  · rw [ofName_of_endsName he]
    exact .name hc hcs he
  · obtain ⟨hkey, hopen⟩ : (c :: cs = ['j', 's'] ∨ c :: cs = ['c', 's', 's']) ∧
        rest.head? = some openBrace := by
      by_contra hno
      exact he ⟨hr, fun hkey hopen => hno ⟨hkey, hopen⟩⟩
    obtain ⟨ds, rfl⟩ := List.head?_eq_some_iff.mp hopen
    rcases hkey with hkey | hkey
    · rw [hkey]
      exact classified_ofBlock rfl ds
    · rw [hkey]
      exact classified_ofBlock rfl ds

lemma classified_first {s : Text} (hs : s ≠ []) : (first s).Classified := by
  cases s with
  | nil => exact (hs rfl).elim
  | cons c cs =>
    rw [first]
    split
    · next hc => exact .blank cs hc
    split
    · next hc => exact classified_ofString (by simpa [quotes] using hc) cs
    split
    · next kind hk =>
      obtain ⟨l₁, l₂, hl, _⟩ := List.lookup_eq_some_iff.mp hk
      have hm : (c, kind) ∈ marks := by simp [hl]
      simp only [marks, List.mem_cons, Prod.mk.injEq, List.not_mem_nil, or_false] at hm
      rcases hm with ⟨rfl, rfl⟩ | ⟨rfl, rfl⟩ | ⟨rfl, rfl⟩ | ⟨rfl, rfl⟩
      · exact .equal cs
      · exact .leftBrace cs
      · exact .rightBrace cs
      · exact .semicolon cs
    split
    · exact classified_ofComment cs
    split
    · exact classified_ofMarkup cs
    split
    · exact classified_ofEscape cs
    split
    · next hc =>
      refine classified_ofName hc (fun d hd => List.mem_takeWhile_imp hd) fun d hd => ?_
      have := List.head?_dropWhile_not isNameChar cs
      rw [Option.mem_def.mp hd] at this
      simpa using this
    · trivial

lemma first_eq_finished_iff {s : Text} : first s = .finished ↔ s = [] := by
  constructor
  · intro h
    by_contra hs
    have hc := classified_first hs
    rw [h] at hc
    exact hc
  · rintro rfl
    rfl

lemma classified_of_first_eq {s : Text} {r : Reading} (h : first s = r) (hr : r ≠ .finished) :
    r.Classified := by
  rw [← h]
  apply classified_first
  intro hs
  exact hr (h.symm.trans (first_eq_finished_iff.mpr hs))

lemma isLexical_of_first_eq_endless {s : Text} {cause : Fault.Cause}
    (h : first s = .endless cause) : cause.kind.isLexical = true :=
  classified_of_first_eq h nofun

lemma first_eq_skipped_iff {s x rest : Text} :
    first s = .skipped x rest ↔ s = x ++ rest ∧ Skipped x rest := by
  constructor
  · intro h
    have hs := splits_first s
    rw [h] at hs
    exact ⟨hs.2, classified_of_first_eq h nofun⟩
  · rintro ⟨rfl, h⟩
    exact first_of_skipped h

lemma first_eq_token_iff {s x rest : Text} {kind : Kind} :
    first s = .token kind x rest ↔ s = x ++ rest ∧ Lexeme kind x rest := by
  constructor
  · intro h
    have hs := splits_first s
    rw [h] at hs
    exact ⟨hs.2, classified_of_first_eq h nofun⟩
  · rintro ⟨rfl, h⟩
    exact first_of_lexeme h

end Reading

end BraceMarkup.Token
