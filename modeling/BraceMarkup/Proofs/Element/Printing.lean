import BraceMarkup.Proofs.Element.Language
import BraceMarkup.Proofs.Token.Boundary

namespace BraceMarkup

open Token

def Text.IsName (x : Text) : Prop :=
  ∃ c cs, x = c :: cs ∧ isNameStart c = true ∧ ∀ d ∈ cs, isNameChar d = true

def Text.IsLiteral (x : Text) : Prop :=
  ∃ quote body, (quote = '"' ∨ quote = '\'') ∧ quote ∉ body ∧ x = quote :: body ++ [quote]

namespace Attribute

variable {ℓ : Type}

def source (a : Attribute ℓ) : Text :=
  match a.value with
  | none => a.name
  | some value => a.name ++ '=' :: value

def Printable (a : Attribute ℓ) : Prop :=
  a.name.IsName ∧ ∀ value ∈ a.value, value.IsLiteral

end Attribute

namespace Element

variable {ℓ : Type}

def quoteFor (value : Text) : Char :=
  if '"' ∈ value then '\'' else '"'

def headSource (name : Text) (attributes : List (Attribute ℓ)) : Text :=
  name ++ attributes.flatMap fun a => ' ' :: a.source

mutual

def source : Element ℓ → Text
  | .tag name attributes [] _ => headSource name attributes ++ [';']
  | .tag name attributes (e :: es) _ =>
    headSource name attributes ++ [' ', openBrace, ' '] ++ [' '].intercalate (sources (e :: es)) ++
      [' ', closeBrace]
  | .text value _ => quoteFor value :: value ++ [quoteFor value]
  | .raw value _ => value
  | .foreign _ => []

def sources : List (Element ℓ) → List Text
  | [] => []
  | e :: es => source e :: sources es

end

def toSource (es : List (Element ℓ)) : Text :=
  [' '].intercalate (sources es)

mutual

def Printable : Element ℓ → Prop
  | .tag name attributes children _ =>
    name.IsName ∧ (∀ a ∈ attributes, a.Printable) ∧ PrintableAll children
  | .text value _ => '"' ∉ value ∨ '\'' ∉ value
  | .raw value _ => ∃ body, Balanced '<' '>' body ∧ value = '<' :: body ++ ['>']
  | .foreign _ => False

def PrintableAll : List (Element ℓ) → Prop
  | [] => True
  | e :: es => Printable e ∧ PrintableAll es

end

mutual

theorem depth_bare : ∀ e : Element ℓ, e.bare.depth = e.depth
  | .tag _ _ [] _ => rfl
  | .tag _ _ (e :: es) _ => by
    have h := maxDepth_bareAll (e :: es)
    simp only [bare, depth, bareAll, List.isEmpty_cons] at h ⊢
    rw [h]
  | .text _ _ | .raw _ _ | .foreign _ => rfl

theorem maxDepth_bareAll : ∀ es : List (Element ℓ), maxDepth (bareAll es) = maxDepth es
  | [] => rfl
  | e :: es => by simp only [bareAll, maxDepth, depth_bare e, maxDepth_bareAll es]

end

end Element

section Writing

open Element Grammar

variable {ℓ : Type} {x u : Text}

lemma breaks_blank (u : Text) : Breaks (' ' :: u) :=
  breaks_cons (by decide) (by decide) u

lemma breaks_attributes (as : List (Attribute ℓ)) (hu : Breaks u) :
    Breaks ((as.flatMap fun a => ' ' :: a.source) ++ u) := by
  cases as with
  | nil => exact hu
  | cons a as => exact breaks_blank _

lemma Text.IsName.lexeme (h : x.IsName) (hu : Breaks u) : Lexeme .name x u := by
  obtain ⟨c, cs, rfl, hc, hcs⟩ := h
  exact .name hc hcs (hu _)

lemma Text.IsLiteral.lexeme (h : x.IsLiteral) (u : Text) : Lexeme .string x u := by
  obtain ⟨quote, body, hq, hb, rfl⟩ := h
  exact .string u hq hb

lemma lexes_blank (u : Text) : Lexes [' '] [] u :=
  .skipped (.blank u (by simp))

lemma exists_attributeTree {a : Attribute ℓ} (h : a.Printable) :
    ∃ ts b, AttributeTree ts b ∧ b.bare = a.bare ∧
      ∀ u, Breaks u → Lexes a.source (ts.map Token.word) u := by
  obtain ⟨name, value, location⟩ := a
  obtain ⟨hname, hvalue⟩ := h
  let n : Token := ⟨.name, name, {}⟩
  cases value with
  | none =>
    refine ⟨[n], _, .bare rfl, rfl, fun u hu => ?_⟩
    exact .lexeme (hname.lexeme hu)
  | some value =>
    let q : Token := ⟨.equal, ['='], {}⟩
    let v : Token := ⟨.string, value, {}⟩
    refine ⟨[n, q, v], ⟨n.lexeme, some v.lexeme, n.span⟩, .valued rfl rfl rfl, rfl, fun u _ => ?_⟩
    have hbreak : Breaks ('=' :: value ++ u) := breaks_cons (by decide) (by decide) _
    have hv : Lexes value [v.word] u := .lexeme (Text.IsLiteral.lexeme (hvalue value rfl) u)
    have hq : Lexes ('=' :: value) [q.word, v.word] u := (Lexes.lexeme (.equal (value ++ u))).append hv
    exact (Lexes.lexeme (hname.lexeme hbreak)).append hq

lemma exists_attributeTrees {as : List (Attribute ℓ)} (h : ∀ a ∈ as, a.Printable) :
    ∃ ts bs, AttributeTrees ts bs ∧ bs.map Attribute.bare = as.map Attribute.bare ∧
      ∀ u, Breaks u → Lexes (as.flatMap fun a => ' ' :: a.source) (ts.map Token.word) u := by
  induction as with
  | nil => exact ⟨[], [], .nil, rfl, fun u _ => .nil u⟩
  | cons a as ih =>
    obtain ⟨ts, b, hb, hbare, hlex⟩ := exists_attributeTree (h a (by simp))
    obtain ⟨us, bs, hbs, hbares, hlexes⟩ := ih fun c hc => h c (List.mem_cons_of_mem a hc)
    refine ⟨ts ++ us, b :: bs, .cons hb hbs, by simp [hbare, hbares], fun u hu => ?_⟩
    have hrest := (hlex _ (breaks_attributes as hu)).append (hlexes u hu)
    rw [List.map_append, List.flatMap_cons]
    exact (lexes_blank _).append hrest

lemma exists_head {name : Text} {as : List (Attribute ℓ)} (hname : name.IsName)
    (h : ∀ a ∈ as, a.Printable) :
    ∃ ts bs, AttributeTrees ts bs ∧ bs.map Attribute.bare = as.map Attribute.bare ∧
      ∀ u, Breaks u → Lexes (headSource name as) ((.name, name) :: ts.map Token.word) u := by
  obtain ⟨ts, bs, hbs, hbare, hlex⟩ := exists_attributeTrees h
  refine ⟨ts, bs, hbs, hbare, fun u hu => ?_⟩
  exact (Lexes.lexeme (hname.lexeme (breaks_attributes as hu))).append (hlex u hu)

lemma quoteFor_cases {value : Text} (h : '"' ∉ value ∨ '\'' ∉ value) :
    (quoteFor value = '"' ∨ quoteFor value = '\'') ∧ quoteFor value ∉ value := by
  by_cases hv : '"' ∈ value
  · simpa [quoteFor, hv] using h
  · simp [quoteFor, hv]

lemma intercalate_cons_cons (x y : Text) (xs : List Text) :
    [' '].intercalate (x :: y :: xs) = x ++ ([' '] ++ [' '].intercalate (y :: xs)) := by
  simp [List.intercalate]

mutual

theorem exists_elementTree : ∀ e : Element ℓ, e.Printable → ∃ ts f, ElementTree ts f ∧
    f.bare = e.bare ∧ ∀ u, Lexes e.source (ts.map Token.word) u
  | .tag name as [] _, h => by
    obtain ⟨ts, bs, hbs, hbare, hlex⟩ := exists_head h.1 h.2.1
    let n : Token := ⟨.name, name, {}⟩
    let s : Token := ⟨.semicolon, [';'], {}⟩
    refine ⟨n :: ts ++ [s], .tag name bs [] {}, .tag rfl hbs (.semicolon rfl), ?_, fun u => ?_⟩
    · simp [bare, hbare, bareAll]
    · have hbreak : Breaks (';' :: u) := breaks_cons (by decide) (by decide) u
      have hlex := (hlex (';' :: u) hbreak).append (.lexeme (.semicolon u))
      simpa [source, Token.word] using! hlex
  | .tag name as (e :: es) _, h => by
    obtain ⟨ts, bs, hbs, hbare, hlex⟩ := exists_head h.1 h.2.1
    obtain ⟨us, fs, hfs, hbare', hlex'⟩ := exists_elementTrees (e :: es) h.2.2
    let n : Token := ⟨.name, name, {}⟩
    let l : Token := ⟨.leftBrace, [openBrace], {}⟩
    let r : Token := ⟨.rightBrace, [closeBrace], {}⟩
    refine ⟨n :: ts ++ (l :: us ++ [r]), .tag name bs fs {}, .tag rfl hbs (.braces rfl hfs rfl), ?_,
      fun u => ?_⟩
    · simp [bare, hbare, hbare']
    · have hclose : Lexes [' ', closeBrace] [r.word] u :=
        (lexes_blank _).append (.lexeme (.rightBrace u))
      have hopen (v : Text) : Lexes [' ', openBrace, ' '] [l.word] v :=
        (lexes_blank _).append ((Lexes.lexeme (.leftBrace _)).append (lexes_blank v))
      have hbody := (hopen _).append ((hlex' _).append hclose)
      have hall := (hlex _ (breaks_blank _)).append hbody
      simpa [source, toSource, Token.word] using! hall
  | .text value _, h => by
    obtain ⟨hq, hv⟩ := quoteFor_cases h
    let t : Token := ⟨.string, quoteFor value :: value ++ [quoteFor value], {}⟩
    refine ⟨[t], _, .leaf (.string rfl), ?_, fun u => .lexeme (.string u hq hv)⟩
    simp [bare, t]
  | .raw value _, h => by
    obtain ⟨body, hb, rfl⟩ := h
    let t : Token := ⟨.html, '<' :: body ++ ['>'], {}⟩
    exact ⟨[t], _, .leaf (.html rfl), rfl, fun u => .lexeme (.html u hb)⟩
  | .foreign _, h => h.elim

theorem exists_elementTrees : ∀ es : List (Element ℓ), PrintableAll es → ∃ ts fs,
    ElementTrees ts fs ∧ bareAll fs = bareAll es ∧ ∀ u, Lexes (toSource es) (ts.map Token.word) u
  | [], _ => ⟨[], [], .nil, rfl, .nil⟩
  | [e], h => by
    obtain ⟨ts, f, hf, hbare, hlex⟩ := exists_elementTree e h.1
    refine ⟨ts, [f], hf.single, by simp [bareAll, hbare], fun u => ?_⟩
    simpa [toSource, sources, List.intercalate] using hlex u
  | e :: e' :: es, h => by
    obtain ⟨ts, f, hf, hbare, hlex⟩ := exists_elementTree e h.1
    obtain ⟨us, fs, hfs, hbare', hlex'⟩ := exists_elementTrees (e' :: es) h.2
    refine ⟨ts ++ us, f :: fs, .cons hf hfs, ?_, fun u => ?_⟩
    · rw [bareAll, bareAll, hbare, hbare']
    · rw [toSource, sources, sources, intercalate_cons_cons, List.map_append]
      exact (hlex _).append ((lexes_blank _).append (hlex' u))

end

lemma parseWithin_toSource {limit : Nat} {es : List (Element ℓ)} (h : PrintableAll es)
    (hd : maxDepth es < limit) :
    ∃ fs, parseWithin limit (toSource es) = .ok fs ∧ bareAll fs = bareAll es := by
  obtain ⟨ts, fs, hfs, hbare, hlex⟩ := exists_elementTrees es h
  obtain ⟨hf, htokens⟩ := Cursor.drain_ofText_of_lexes (hlex [])
  obtain ⟨gs, hgs, hbare'⟩ := hfs.relocate htokens
  have hall : bareAll gs = bareAll es := hbare'.trans hbare
  have hdepth : maxDepth gs < limit := by
    rw [← maxDepth_bareAll gs, hall, maxDepth_bareAll es]
    exact hd
  exact ⟨gs, parseWithin_of_elementTrees hf hgs hdepth, hall⟩

end Writing

section Parsed

open Element Grammar

variable {x r : Text} {t : Token} {ts : List Token}

lemma isName_of_lexeme (h : Lexeme .name x r) : x.IsName := by
  cases h with
  | name hc hcs _ => exact ⟨_, _, rfl, hc, hcs⟩

lemma isLiteral_of_lexeme (h : Lexeme .string x r) : x.IsLiteral := by
  cases h with
  | string _ hq hb => exact ⟨_, _, hq, hb, rfl⟩

lemma exists_balanced_of_lexeme (h : Lexeme .html x r) :
    ∃ body, Balanced '<' '>' body ∧ x = '<' :: body ++ ['>'] := by
  cases h with
  | html _ hb => exact ⟨_, hb, rfl⟩

def Plain (t : Token) : Prop :=
  t.kind.isEmbedded = false ∧ ∃ r, Lexeme t.kind t.lexeme r

lemma Plain.lexeme {kind : Kind} (h : Plain t) (hk : t.kind = kind) :
    ∃ r, Lexeme kind t.lexeme r :=
  hk ▸ h.2

lemma printable_of_leafTree {e : Element Span} (h : LeafTree t e) (ht : Plain t) :
    e.Printable := by
  cases h with
  | string hk =>
    obtain ⟨r, hr⟩ := ht.lexeme hk
    obtain ⟨quote, body, hq, hb, hx⟩ := isLiteral_of_lexeme hr
    have hbody : t.lexeme.tail.dropLast = body := by simp [hx]
    rw [Printable, hbody]
    rcases hq with rfl | rfl
    · exact .inl hb
    · exact .inr hb
  | html hk =>
    obtain ⟨r, hr⟩ := ht.lexeme hk
    exact exists_balanced_of_lexeme hr
  | script hk | style hk => simp [Plain, hk, Kind.isEmbedded] at ht

lemma printable_of_attributeTree {a : Attribute Span} (h : AttributeTree ts a)
    (hts : ∀ t ∈ ts, Plain t) : a.Printable := by
  cases h with
  | @bare n hn =>
    obtain ⟨r, hr⟩ := (hts n (by simp)).lexeme hn
    exact ⟨isName_of_lexeme hr, by simp⟩
  | @valued n q v hn hq hv =>
    obtain ⟨r, hr⟩ := (hts n (by simp)).lexeme hn
    obtain ⟨r', hr'⟩ := (hts v (by simp)).lexeme hv
    refine ⟨isName_of_lexeme hr, ?_⟩
    rintro value ⟨⟩
    exact isLiteral_of_lexeme hr'

lemma printable_of_attributeTrees {as : List (Attribute Span)} (h : AttributeTrees ts as)
    (hts : ∀ t ∈ ts, Plain t) : ∀ a ∈ as, a.Printable := by
  induction h with
  | nil => simp
  | @cons us vs a as ha _ ih =>
    obtain ⟨hus, hvs⟩ := List.forall_mem_append.mp hts
    intro b hb
    rcases List.mem_cons.mp hb with rfl | hb
    · exact printable_of_attributeTree ha hus
    · exact ih hvs b hb

mutual

theorem printable_of_elementTree {ts : List Token} {e : Element Span} :
    ElementTree ts e → (∀ t ∈ ts, Plain t) → e.Printable
  | .leaf h, hts => printable_of_leafTree h (hts _ (by simp))
  | .tag hn has hes, hts => by
    obtain ⟨hhead, hbody⟩ := List.forall_mem_append.mp hts
    obtain ⟨hname, hattributes⟩ := List.forall_mem_cons.mp hhead
    obtain ⟨r, hr⟩ := hname.lexeme hn
    exact ⟨isName_of_lexeme hr, printable_of_attributeTrees has hattributes,
      printable_of_bodyTree hes hbody⟩

theorem printable_of_bodyTree {ts : List Token} {es : List (Element Span)} :
    BodyTree ts es → (∀ t ∈ ts, Plain t) → PrintableAll es
  | .semicolon _, _ => trivial
  | .braces _ hes _, hts => by
    obtain ⟨hopen, _⟩ := List.forall_mem_append.mp hts
    exact printable_of_elementTrees hes (List.forall_mem_cons.mp hopen).2
  | .leaf h, hts => ⟨printable_of_leafTree h (hts _ (by simp)), trivial⟩
  | .leafSemicolon h _, hts => ⟨printable_of_leafTree h (hts _ (by simp)), trivial⟩

theorem printable_of_elementTrees {ts : List Token} {es : List (Element Span)} :
    ElementTrees ts es → (∀ t ∈ ts, Plain t) → PrintableAll es
  | .nil, _ => trivial
  | .cons he hes, hts => by
    obtain ⟨hfirst, hothers⟩ := List.forall_mem_append.mp hts
    exact ⟨printable_of_elementTree he hfirst, printable_of_elementTrees hes hothers⟩

end

lemma plain_of_mem_tokens {s : Text} (hf : (Cursor.ofText s).drain.fault = none)
    (hk : Unembedded (Cursor.ofText s).drain.tokens) :
    ∀ t ∈ (Cursor.ofText s).drain.tokens, Plain t := by
  intro t ht
  refine ⟨hk t ht, ?_⟩
  obtain ⟨ps, _, hps, hts⟩ := Cursor.exists_pieces_of_fault_eq_none hf
  rw [hts] at ht
  obtain ⟨before, after, hsplit⟩ := List.append_of_mem ht
  obtain ⟨qs, rs, rfl, _⟩ := exists_of_located_eq_append hsplit
  exact ⟨_, (fitting_append.mp hps).2.1⟩

end Parsed

section Inverse

open Element Grammar

/-- Parsing undoes writing on every tree that can be written and whose depth the limit allows.
Every tree parsed from a text without embedded blocks can be written, and is parsed again. -/
theorem parseWithin_toSource_inverse (limit : Nat) :
    (∀ (ℓ : Type) (es : List (Element ℓ)), PrintableAll es → maxDepth es < limit →
      ∃ fs, parseWithin limit (toSource es) = .ok fs ∧ bareAll fs = bareAll es) ∧
    ∀ s es, parseWithin limit s = .ok es → Unembedded (Cursor.ofText s).drain.tokens →
      PrintableAll es ∧
        ∃ fs, parseWithin limit (toSource es) = .ok fs ∧ bareAll fs = bareAll es := by
  constructor
  · intro ℓ es h hd
    exact parseWithin_toSource h hd
  · intro s es h hk
    obtain ⟨hf, htrees, hdepth⟩ := elementsWithin_of_parseWithin h
    have hprintable := printable_of_elementTrees htrees (plain_of_mem_tokens hf hk)
    rw [hk.blockLevels_eq_zero, Nat.add_zero] at hdepth
    have hd := (maxDepth_lt_iff (pos_of_parseWithin h)).mpr hdepth
    exact ⟨hprintable, parseWithin_toSource hprintable hd⟩

theorem parse_toSource_keyword_names :
    (∃ fs, parse "js css=\"x\" \x7b \"it's\" <b <i>> \x7d '\"'".toList = .ok fs ∧
      bareAll fs = [.tag "js".toList [⟨"css".toList, some "\"x\"".toList, ()⟩]
        [.text "it's".toList (), .raw "<b <i>>".toList ()] (), .text "\"".toList ()]) ∧
    ∃ es, parse "css /*\x7b*/ 'a' ; ".toList = .ok es ∧ PrintableAll es ∧
      ∃ fs, parse (toSource es) = .ok fs ∧ bareAll fs = bareAll es := by
  obtain ⟨hwrite, hread⟩ := parseWithin_toSource_inverse nestingLimit
  constructor
  · refine hwrite Unit [.tag "js".toList [⟨"css".toList, some "\"x\"".toList, ()⟩]
      [.text "it's".toList (), .raw "<b <i>>".toList ()] (), .text "\"".toList ()] ?_ (by decide)
    have hname : Text.IsName "js".toList ∧ Text.IsName "css".toList :=
      ⟨⟨'j', ['s'], rfl, rfl, List.all_eq_true.mp rfl⟩,
        ⟨'c', ['s', 's'], rfl, rfl, List.all_eq_true.mp rfl⟩⟩
    have hvalue : Text.IsLiteral "\"x\"".toList := ⟨'"', ['x'], by decide⟩
    have hmarkup : Balanced '<' '>' "b <i>".toList :=
      .other (by decide) (by decide) (.other (by decide) (by decide)
        (.nested (.other (by decide) (by decide) .nil) .nil))
    refine ⟨⟨hname.1, ?_, .inl (by decide), ⟨_, hmarkup, rfl⟩, trivial⟩, .inr (by decide), trivial⟩
    rintro a ha
    obtain rfl := List.mem_singleton.mp ha
    refine ⟨hname.2, ?_⟩
    rintro value ⟨⟩
    exact hvalue
  · have hparse : parse "css /*\x7b*/ 'a' ; ".toList = .ok
        [.tag "css".toList [] [.text "a".toList ⟨10, 3, ⟨1, 11⟩, ⟨1, 13⟩⟩] ⟨0, 3, ⟨1, 1⟩, ⟨1, 3⟩⟩] := by
      decide +kernel
    have hplain : ∀ t ∈ (Cursor.ofText "css /*\x7b*/ 'a' ; ".toList).drain.tokens,
        t.kind.isEmbedded = false := by
      decide +kernel
    exact ⟨_, hparse, hread _ _ hparse hplain⟩

end Inverse

end BraceMarkup
