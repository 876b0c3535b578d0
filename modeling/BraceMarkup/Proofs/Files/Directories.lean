import BraceMarkup.Proofs.Files.Updates
import Mathlib.Tactic

/-! Making directories for a file. Looking for what is missing from the far end of a path has the
same effect as walking along the path and making each directory that is not there. -/

namespace BraceMarkup

lemma Anchor.start_isPrefix (working : List Text) (anchor : Anchor) :
    anchor.start working <+: working := by
  cases anchor with
  | working => exact List.prefix_rfl
  | root | doubleRoot => exact List.nil_prefix

namespace Path

lemma byteCount_append (s t : Text) : byteCount (s ++ t) = byteCount s + byteCount t := by
  have hsum (n : Nat) (s : Text) :
      s.foldl (fun n c => n + c.utf8Size) n = n + byteCount s := by
    induction s generalizing n with
    | nil => rfl
    | cons c s ih =>
      rw [byteCount, List.foldl_cons, List.foldl_cons, ih, ih (0 + c.utf8Size)]
      omega
  rw [byteCount, List.foldl_append, hsum]
  rfl

lemma intercalate_prefix_concat (sep : Text) (xs : List Text) (y : Text) :
    sep.intercalate xs <+: sep.intercalate (xs ++ [y]) := by
  induction xs with
  | nil => simp
  | cons x xs ih =>
    cases xs with
    | nil => simp [List.intercalate_cons_cons]
    | cons x' xs =>
      rw [List.intercalate_cons_cons, List.cons_append, List.cons_append,
        List.intercalate_cons_cons]
      exact (List.prefix_append_right_inj _).mpr ih

lemma byteCount_text_le {anchor : Anchor} {parts : List Text} {part : Text} {limit : Nat}
    (hlimit : 1 ≤ limit) (h : byteCount (text { parts := parts ++ [part], anchor }) ≤ limit) :
    byteCount (text { parts, anchor }) ≤ limit := by
  by_cases hdot : anchor = .working ∧ parts = []
  · obtain ⟨rfl, rfl⟩ := hdot
    exact hlimit
  · have hshort : text { parts, anchor } = anchor.text ++ ['/'].intercalate parts := if_neg hdot
    have hlong : text { parts := parts ++ [part], anchor } =
        anchor.text ++ ['/'].intercalate (parts ++ [part]) := if_neg (by simp)
    obtain ⟨rest, hrest⟩ := intercalate_prefix_concat ['/'] parts part
    rw [hlong, ← hrest, ← List.append_assoc, ← hshort, byteCount_append] at h
    omega

lemma byteCount_parent_le {p : Path} {limit : Nat} (hlimit : 1 ≤ limit)
    (h : byteCount p.text ≤ limit) : byteCount p.parent.text ≤ limit := by
  obtain ⟨all, anchor⟩ := p
  obtain rfl | ⟨parts, part, rfl⟩ := List.eq_nil_or_concat all
  · exact h
  · rw [List.concat_eq_append] at h ⊢
    rw [parent, List.dropLast_concat]
    exact byteCount_text_le hlimit h

lemma getLast?_direct_withSuffix {p : Path} {suffix : Text} {working : List Text}
    (hsuffix : 2 < suffix.length) (h : ¬ (p.withSuffix suffix).direct working <+: working) :
    ∃ name, ((p.withSuffix suffix).direct working).getLast? = some (name ++ suffix) := by
  unfold withSuffix at h ⊢
  split at h
  next hnone =>
    rw [direct, List.getLast?_eq_none_iff.mp hnone] at h
    exact absurd (p.anchor.start_isPrefix working) h
  next name _ =>
    have hname : stem name ++ suffix ≠ up := fun heq => by
      have hlength := congrArg List.length heq
      simp [up] at hlength
      omega
    exact ⟨stem name, by simp [direct, follow, hname]⟩

end Path

namespace FileTree

lemma find?_start (t : FileTree) (anchor : Anchor) :
    t.find? (anchor.start t.working) = some .directory :=
  find?_of_isPrefix (anchor.start_isPrefix t.working)

section Growth

variable {new new' : List Text → Prop} {t t' t'' u : FileTree} {l : List Text} {entry : Entry}
  {bytes : List UInt8}

/-- From `t` to `t'` nothing changes, but directories may have been made where there was nothing,
at locations that `new` allows. -/
structure GrowsAt (new : List Text → Prop) (t t' : FileTree) : Prop where
  working : t'.working = t.working
  entry (l : List Text) :
    t'.find? l = t.find? l ∨ t.find? l = none ∧ t'.find? l = some .directory ∧ new l

namespace GrowsAt

lemma refl (new : List Text → Prop) (t : FileTree) : GrowsAt new t t :=
  ⟨rfl, fun _ => .inl rfl⟩

lemma trans (h : GrowsAt new t t') (h' : GrowsAt new t' t'') : GrowsAt new t t'' := by
  refine ⟨h'.working.trans h.working, fun l => ?_⟩
  obtain hl | ⟨hnone, hdir, hnew⟩ := h.entry l
  · rw [← hl]
    exact h'.entry l
  · obtain hl' | ⟨hnone', -, -⟩ := h'.entry l
    · exact .inr ⟨hnone, hl'.trans hdir, hnew⟩
    · simp [hdir] at hnone'

lemma mono (h : GrowsAt new t t') (hnew : ∀ l, new l → new' l) : GrowsAt new' t t' :=
  ⟨h.working, fun l => (h.entry l).imp_right fun ⟨hnone, hdir, hl⟩ => ⟨hnone, hdir, hnew l hl⟩⟩

lemma directory (h : GrowsAt new t t') (hl : t.find? l = some .directory) :
    t'.find? l = some .directory := by
  obtain hsame | ⟨-, hdir, -⟩ := h.entry l
  · rw [hsame, hl]
  · exact hdir

lemma file_iff (h : GrowsAt new t t') :
    t'.find? l = some (.file bytes) ↔ t.find? l = some (.file bytes) := by
  obtain hsame | ⟨hnone, hdir, -⟩ := h.entry l
  · rw [hsame]
  · simp [hnone, hdir]

lemma none (h : GrowsAt new t t') (hl : t'.find? l = none) : t.find? l = none := by
  obtain hsame | ⟨hnone, -, -⟩ := h.entry l
  · rw [← hsame, hl]
  · exact hnone

lemma updates (h : GrowsAt new t t') : Updates (fun _ _ => False) t t' :=
  ⟨h.working, h.directory, fun hl => ⟨_, h.file_iff.mpr hl⟩, fun hl => .inl (h.file_iff.mp hl)⟩

lemma put (h : GrowsAt new t t') (hl : ¬ l <+: t.working) (entry : Entry) :
    GrowsAt new (t.put l entry) (t'.put l entry) := by
  refine ⟨h.working, fun m => ?_⟩
  by_cases hm : m = l
  · rw [hm, find?_put_self _ _ hl, find?_put_self _ _ (h.working ▸ hl)]
    exact .inl rfl
  · rw [find?_put_of_ne _ _ hm, find?_put_of_ne _ _ hm]
    exact h.entry m

lemma put_left (h : GrowsAt new t t') (hl : t'.find? l = some .directory)
    (hfree : ¬ l <+: t.working) : GrowsAt new (t.put l .directory) t' := by
  refine ⟨h.working, fun m => ?_⟩
  by_cases hm : m = l
  · rw [hm, find?_put_self _ _ hfree, hl]
    exact .inl rfl
  · rw [find?_put_of_ne _ _ hm]
    exact h.entry m

end GrowsAt

lemma not_prefix_of_find?_eq_none (h : t.find? l = none) : ¬ l <+: t.working :=
  not_prefix_of_find? (by simp [h])

lemma growsAt_put (h : t.find? l = none) (hl : new l) : GrowsAt new t (t.put l .directory) := by
  refine ⟨rfl, fun m => ?_⟩
  by_cases hm : m = l
  · subst hm
    exact .inr ⟨h, find?_put_self t _ (not_prefix_of_find?_eq_none h), hl⟩
  · exact .inl (find?_put_of_ne t _ hm)

end Growth

section Walking

variable {t u : FileTree} {here l m parts : List Text} {part : Text}

lemma locateFrom_of_directory (hhere : t.find? here = some .directory) (part : Text)
    (parts : List Text) :
    t.locateFrom here (part :: parts) =
      if nameLimit < Path.byteCount part then .error .nameTooLong
      else t.locateFrom (Path.follow here part) parts := by
  rw [locateFrom, hhere]

lemma locateFrom_of_le (hhere : t.find? here = some .directory)
    (h : Path.byteCount part ≤ nameLimit) (parts : List Text) :
    t.locateFrom here (part :: parts) = t.locateFrom (Path.follow here part) parts := by
  rw [locateFrom_of_directory hhere, if_neg (Nat.not_lt.mpr h)]

lemma locateFrom_cons_eq_ok (h : t.locateFrom here (part :: parts) = .ok l) :
    t.find? here = some .directory ∧ Path.byteCount part ≤ nameLimit ∧
      t.locateFrom (Path.follow here part) parts = .ok l := by
  rw [locateFrom] at h
  split at h
  next => cases h
  next => cases h
  next hhere =>
    split_ifs at h with hlong
    exact ⟨hhere, Nat.not_lt.mp hlong, h⟩

lemma locateFrom_append (h : t.locateFrom here parts = .ok l) (rest : List Text) :
    t.locateFrom here (parts ++ rest) = t.locateFrom l rest := by
  induction parts generalizing here with
  | nil =>
    obtain rfl := Except.ok.inj h
    rfl
  | cons part parts ih =>
    obtain ⟨hhere, hpart, h⟩ := locateFrom_cons_eq_ok h
    rw [List.cons_append, locateFrom_of_le hhere hpart, ih h]

lemma locateFrom_concat_eq_ok (h : t.locateFrom here (parts ++ [part]) = .ok m) :
    ∃ l, t.locateFrom here parts = .ok l ∧ t.find? l = some .directory ∧
      m = Path.follow l part := by
  induction parts generalizing here with
  | nil =>
    obtain ⟨hhere, -, h⟩ := locateFrom_cons_eq_ok h
    exact ⟨here, rfl, hhere, (Except.ok.inj h).symm⟩
  | cons part' parts ih =>
    obtain ⟨hhere, hpart, h⟩ := locateFrom_cons_eq_ok h
    rw [locateFrom_of_le hhere hpart]
    exact ih h

lemma find?_of_locateFrom (h : t.locateFrom here parts = .ok l)
    (hl : t.find? l = some .directory) : t.find? here = some .directory := by
  cases parts with
  | nil =>
    obtain rfl := Except.ok.inj h
    exact hl
  | cons part parts => exact (locateFrom_cons_eq_ok h).1

def paveStep (here : List Text) (part : Text) (t : FileTree) : Option (List Text) × FileTree :=
  if nameLimit < Path.byteCount part then (none, t)
  else
    match t.find? (Path.follow here part) with
    | none => (some (Path.follow here part), t.put (Path.follow here part) .directory)
    | some .directory => (some (Path.follow here part), t)
    | some (.file _) => (none, t)

/-- Walks along names, making directories where there is nothing, to the place where they lead. -/
def pave (here : List Text) : List Text → FileTree → Option (List Text) × FileTree
  | [], t => (some here, t)
  | part :: parts, t =>
    match paveStep here part t with
    | (none, t) => (none, t)
    | (some l, t) => pave l parts t

lemma pave_append (here parts rest : List Text) (t : FileTree) :
    pave here (parts ++ rest) t =
      match pave here parts t with
      | (none, u) => (none, u)
      | (some l, u) => pave l rest u := by
  induction parts generalizing here t with
  | nil => rfl
  | cons part parts ih =>
    simp only [List.cons_append, pave]
    rcases paveStep here part t with ⟨_ | l, u⟩
    · rfl
    · exact ih l u

lemma pave_append_of_none (h : pave here parts t = (none, u)) (rest : List Text) :
    pave here (parts ++ rest) t = (none, u) := by
  rw [pave_append, h]

lemma pave_concat_of_some (h : pave here parts t = (some l, u)) (part : Text) :
    pave here (parts ++ [part]) t = paveStep l part u := by
  rw [pave_append, h]
  simp only [pave]
  rcases paveStep l part u with ⟨_ | m, v⟩ <;> rfl

lemma paveStep_of_lt (h : nameLimit < Path.byteCount part) (here : List Text) (t : FileTree) :
    paveStep here part t = (none, t) :=
  if_pos h

lemma paveStep_of_le (h : Path.byteCount part ≤ nameLimit) (here : List Text) (t : FileTree) :
    paveStep here part t =
      match t.find? (Path.follow here part) with
      | none => (some (Path.follow here part), t.put (Path.follow here part) .directory)
      | some .directory => (some (Path.follow here part), t)
      | some (.file _) => (none, t) :=
  if_neg (Nat.not_lt.mpr h)

lemma paveStep_eq_some (h : paveStep here part t = (some l, u)) :
    Path.byteCount part ≤ nameLimit ∧ l = Path.follow here part ∧
      (t.find? l = none ∧ u = t.put l .directory ∨ t.find? l = some .directory ∧ u = t) := by
  unfold paveStep at h
  split at h
  next => cases h
  next hlong =>
    refine ⟨Nat.not_lt.mp hlong, ?_⟩
    split at h
    next hnone =>
      cases h
      exact ⟨rfl, .inl ⟨hnone, rfl⟩⟩
    next hdir =>
      cases h
      exact ⟨rfl, .inr ⟨hdir, rfl⟩⟩
    next => cases h

lemma paveStep_eq_none (h : paveStep here part t = (none, u)) : u = t := by
  unfold paveStep at h
  split at h
  next => exact (Prod.mk.inj h).2.symm
  next =>
    split at h
    next => cases h
    next => cases h
    next => exact (Prod.mk.inj h).2.symm

lemma find?_of_paveStep (h : paveStep here part t = (some l, u)) :
    u.find? l = some .directory := by
  obtain ⟨-, -, ⟨hnone, rfl⟩ | ⟨hdir, rfl⟩⟩ := paveStep_eq_some h
  · exact find?_put_self t _ (not_prefix_of_find?_eq_none hnone)
  · exact hdir

lemma growsAt_paveStep (h : paveStep here part t = (some l, u)) : GrowsAt (· = l) t u := by
  obtain ⟨-, -, ⟨hnone, rfl⟩ | ⟨-, rfl⟩⟩ := paveStep_eq_some h
  · exact growsAt_put hnone rfl
  · exact .refl _ _

lemma growsAt_pave (here parts : List Text) (t : FileTree) :
    GrowsAt (fun l => ∃ q, q <+: parts ∧ q.foldl Path.follow here = l) t
      (pave here parts t).2 := by
  induction parts generalizing here t with
  | nil => exact .refl _ t
  | cons part parts ih =>
    rw [pave]
    cases hstep : paveStep here part t with
    | mk r u =>
      cases r with
      | none =>
        obtain rfl := paveStep_eq_none hstep
        exact .refl _ _
      | some m =>
        obtain ⟨-, hm, -⟩ := paveStep_eq_some hstep
        refine ((growsAt_paveStep hstep).mono ?_).trans ((ih m u).mono ?_)
        · rintro l rfl
          exact ⟨[part], by simp, hm.symm⟩
        · rintro l ⟨q, hq, rfl⟩
          exact ⟨part :: q, by simpa using hq, by simp [hm]⟩

lemma locateFrom_of_pave (h : pave here parts t = (some l, u))
    (hhere : t.find? here = some .directory) :
    u.locateFrom here parts = .ok l ∧ u.find? l = some .directory := by
  induction parts generalizing here t with
  | nil =>
    cases h
    exact ⟨rfl, hhere⟩
  | cons part parts ih =>
    rw [pave] at h
    split at h
    next => cases h
    next m v hstep =>
      obtain ⟨hpart, rfl, -⟩ := paveStep_eq_some hstep
      obtain ⟨hlocate, hdir⟩ := ih h (find?_of_paveStep hstep)
      refine ⟨?_, hdir⟩
      -- what is made later on does not take away the directory that the walk starts from
      have hgrows := (growsAt_pave (Path.follow here part) parts v).directory
        ((growsAt_paveStep hstep).directory hhere)
      rw [h] at hgrows
      rw [locateFrom_of_le hgrows hpart]
      exact hlocate

lemma working_of_pave (h : pave here parts t = (some l, u)) : u.working = t.working := by
  have hgrows := growsAt_pave here parts t
  rw [h] at hgrows
  exact hgrows.working

lemma pave_of_locateFrom (h : t.locateFrom here parts = .ok l)
    (hl : t.find? l = some .directory) : pave here parts t = (some l, t) := by
  induction parts generalizing here with
  | nil =>
    obtain rfl := Except.ok.inj h
    rfl
  | cons part parts ih =>
    obtain ⟨-, hpart, h⟩ := locateFrom_cons_eq_ok h
    have hstep : paveStep here part t = (some (Path.follow here part), t) := by
      rw [paveStep_of_le hpart]
      simp only [find?_of_locateFrom h hl]
    rw [pave, hstep]
    exact ih h

lemma pave_of_locateFrom_error {trouble : Trouble} (hhere : t.find? here = some .directory)
    (h : t.locateFrom here (parts ++ [part]) = .error trouble) (htrouble : trouble ≠ .missing)
    (hparent : ∀ l, t.locateFrom here parts = .ok l → t.find? l ≠ some .directory) :
    pave here parts t = (none, t) := by
  induction parts generalizing here with
  | nil => exact absurd hhere (hparent here rfl)
  | cons part' parts ih =>
    by_cases hlong : nameLimit < Path.byteCount part'
    · simp [pave, paveStep_of_lt hlong]
    have hpart := Nat.not_lt.mp hlong
    rw [List.cons_append, locateFrom_of_le hhere hpart] at h
    cases hm : t.find? (Path.follow here part') with
    | none =>
      -- the search has not come to its end, so it misses what is not there
      obtain ⟨next, rest, hrest⟩ := List.exists_cons_of_ne_nil
        (List.append_ne_nil_of_right_ne_nil parts (List.cons_ne_nil part []))
      rw [hrest, locateFrom, hm] at h
      exact absurd (Except.error.inj h).symm htrouble
    | some entry =>
      cases entry with
      | file bytes => simp [pave, paveStep_of_le hpart, hm]
      | directory =>
        have hstep : paveStep here part' t = (some (Path.follow here part'), t) := by
          simp [paveStep_of_le hpart, hm]
        rw [pave, hstep]
        refine ih hm h fun l hl => hparent l ?_
        rw [locateFrom_of_le hhere hpart, hl]

variable {new : List Text → Prop} {t' u' : FileTree}

lemma paveStep_of_growsAt (hgrows : GrowsAt new t t') (h : paveStep here part t' = (some l, u')) :
    ∃ u, paveStep here part t = (some l, u) ∧ GrowsAt new u u' := by
  obtain ⟨hpart, rfl, ⟨hnone, rfl⟩ | ⟨hdir, rfl⟩⟩ := paveStep_eq_some h
  · have hfree := hgrows.none hnone
    refine ⟨t.put (Path.follow here part) .directory, ?_,
      hgrows.put (not_prefix_of_find?_eq_none hfree) _⟩
    simp only [paveStep_of_le hpart, hfree]
  · obtain hsame | ⟨hnone, -, -⟩ := hgrows.entry (Path.follow here part)
    · exact ⟨t, by simp only [paveStep_of_le hpart, ← hsame, hdir], hgrows⟩
    · refine ⟨t.put (Path.follow here part) .directory, ?_,
        hgrows.put_left hdir (not_prefix_of_find?_eq_none hnone)⟩
      simp only [paveStep_of_le hpart, hnone]

lemma pave_of_growsAt (hgrows : GrowsAt new t t') (h : pave here parts t' = (some l, u')) :
    ∃ u, pave here parts t = (some l, u) ∧ GrowsAt new u u' := by
  induction parts generalizing here t t' with
  | nil =>
    obtain ⟨hl, rfl⟩ := Prod.mk.inj h
    exact ⟨t, by rw [pave, hl], hgrows⟩
  | cons part parts ih =>
    rw [pave] at h
    split at h
    next => cases h
    next m v' hstep =>
      obtain ⟨v, hv, hgrows⟩ := paveStep_of_growsAt hgrows hstep
      rw [pave, hv]
      exact ih hgrows h

end Walking

section Making

variable {t t' u : FileTree} {p : Path} {l parts : List Text} {part : Text} {bytes : List UInt8}
  {anchor : Anchor}

lemma ensureDirectory_of_error {trouble : Trouble} (h : t.locate p = .error trouble) :
    ensureDirectory p t = .error ⟨trouble, p⟩ t := by
  simp [ensureDirectory, makeDirectory, isDirectory, entry?, h]

lemma ensureDirectory_of_none (h : t.locate p = .ok l) (hl : t.find? l = none) :
    ensureDirectory p t = .ok () (t.put l .directory) := by
  simp [ensureDirectory, makeDirectory, h, hl]

lemma ensureDirectory_of_directory (h : t.locate p = .ok l) (hl : t.find? l = some .directory) :
    ensureDirectory p t = .ok () t := by
  simp [ensureDirectory, makeDirectory, isDirectory, entry?, h, hl]

lemma ensureDirectory_of_file {bytes : List UInt8} (h : t.locate p = .ok l)
    (hl : t.find? l = some (.file bytes)) : ensureDirectory p t = .error ⟨.exists, p⟩ t := by
  simp [ensureDirectory, makeDirectory, isDirectory, entry?, h, hl]

lemma locate_eq_locateFrom (h : Path.byteCount p.text ≤ pathLimit) :
    t.locate p = t.locateFrom (p.anchor.start t.working) p.parts := by
  rw [locate, if_neg (Nat.not_lt.mpr h)]

def Agrees : Option (List Text) × FileTree → EStateM.Result Fault FileTree Unit → Prop
  | (some _, t), r => r = .ok () t
  | (none, t), r => ∃ fault, r = .error fault t

lemma agrees_ensureDirectory
    (hlimit : Path.byteCount (Path.text { parts := parts ++ [part], anchor }) ≤ pathLimit)
    (h : t.locateFrom (anchor.start t.working) parts = .ok l)
    (hl : t.find? l = some .directory) :
    Agrees (paveStep l part t) (ensureDirectory { parts := parts ++ [part], anchor } t) := by
  have hlocate : t.locate { parts := parts ++ [part], anchor } = t.locateFrom l [part] := by
    rw [locate_eq_locateFrom hlimit, locateFrom_append h]
  by_cases hlong : nameLimit < Path.byteCount part
  · rw [locateFrom_of_directory hl, if_pos hlong] at hlocate
    rw [paveStep_of_lt hlong]
    exact ⟨_, ensureDirectory_of_error hlocate⟩
  have hpart := Nat.not_lt.mp hlong
  replace hlocate := hlocate.trans (locateFrom_of_le hl hpart [])
  rw [paveStep_of_le hpart]
  cases hm : t.find? (Path.follow l part) with
  | none => exact ensureDirectory_of_none hlocate hm
  | some entry =>
    cases entry with
    | directory => exact ensureDirectory_of_directory hlocate hm
    | file bytes => exact ⟨_, ensureDirectory_of_file hlocate hm⟩

lemma write_of_locate (h : t.locate p = .ok l) (hl : t.find? l ≠ some .directory)
    (bytes : List UInt8) : write p bytes t = .ok () (t.put l (.file bytes)) := by
  unfold write
  rw [h]
  cases hf : t.find? l with
  | none => simp only [hf]
  | some entry =>
    cases entry with
    | directory => exact absurd hf hl
    | file held => simp only [hf]

lemma write_eq_ok (h : write p bytes t = .ok () u) :
    ∃ l, t.locate p = .ok l ∧ t.find? l ≠ some .directory ∧ u = t.put l (.file bytes) := by
  cases hlocate : t.locate p with
  | error trouble => simp [write, hlocate] at h
  | ok l =>
    by_cases hl : t.find? l = some .directory
    · simp [write, hlocate, hl] at h
    · rw [write_of_locate hlocate hl] at h
      exact ⟨l, rfl, hl, (EStateM.Result.ok.inj h).2.symm⟩

lemma locate_of_parent {new : List Text → Prop} (hgrows : GrowsAt new t t')
    (h : t.locateFrom (p.anchor.start t.working) p.parent.parts = .ok l)
    (hl : t.find? l = some .directory) : t'.locate p = t.locate p := by
  unfold locate
  rw [hgrows.working]
  obtain hnil | ⟨parts, part, hparts⟩ := List.eq_nil_or_concat p.parts
  · rw [hnil]
    rfl
  · rw [Path.parent, hparts, List.concat_eq_append, List.dropLast_concat] at h
    rw [hparts, List.concat_eq_append, locateFrom_append h,
      locateFrom_append (hgrows.updates.locateFrom h), locateFrom_of_directory hl,
      locateFrom_of_directory (hgrows.directory hl)]
    rfl

lemma ensureBack_of_ok {back : List Text}
    (h : ensureDirectory { parts := back.reverse ++ [part], anchor } t = .ok () u) :
    ensureBack anchor (part :: back) t = .ok () u := by
  rw [← List.reverse_cons] at h
  simp only [ensureBack, h]

lemma ensureBack_of_error {back : List Text} {fault : Fault}
    (h : ensureDirectory { parts := back.reverse ++ [part], anchor } t = .error fault t) :
    ensureBack anchor (part :: back) t =
      if fault.trouble = .missing then
        match ensureBack anchor back t with
        | .ok () u => ensureDirectory { parts := back.reverse ++ [part], anchor } u
        | .error fault u => .error fault u
      else .error fault t := by
  rw [← List.reverse_cons] at h ⊢
  simp only [ensureBack, h, Bind.bind, EStateM.bind]
  cases ensureBack anchor back t <;> rfl

lemma agrees_ensureBack_of_parent {back : List Text}
    (hlimit : Path.byteCount (Path.text { parts := back.reverse ++ [part], anchor }) ≤ pathLimit)
    (ih : Agrees (pave (anchor.start t.working) back.reverse t) (ensureBack anchor back t))
    (hl : t.locateFrom (anchor.start t.working) back.reverse = .ok l)
    (hdir : t.find? l = some .directory) :
    Agrees (pave (anchor.start t.working) (back.reverse ++ [part]) t)
      (ensureBack anchor (part :: back) t) := by
  have hpave := pave_of_locateFrom hl hdir
  rw [hpave] at ih
  obtain ih : ensureBack anchor back t = .ok () t := ih
  have hlast := agrees_ensureDirectory hlimit hl hdir
  rw [pave_concat_of_some hpave]
  cases hstep : paveStep l part t with
  | mk r u =>
    rw [hstep] at hlast
    cases r with
    | some m => exact ensureBack_of_ok hlast
    | none =>
      obtain rfl := paveStep_eq_none hstep
      obtain ⟨fault, hlast⟩ := hlast
      -- a second try after making the parent fails like the first one
      refine ⟨fault, ?_⟩
      rw [ensureBack_of_error hlast]
      simp only [ih, hlast, ite_self]

lemma agrees_ensureBack_of_no_parent {back : List Text}
    (hlimit : Path.byteCount (Path.text { parts := back.reverse ++ [part], anchor }) ≤ pathLimit)
    (ih : Agrees (pave (anchor.start t.working) back.reverse t) (ensureBack anchor back t))
    (hparent : ∀ l, t.locateFrom (anchor.start t.working) back.reverse = .ok l →
      t.find? l ≠ some .directory) :
    Agrees (pave (anchor.start t.working) (back.reverse ++ [part]) t)
      (ensureBack anchor (part :: back) t) := by
  obtain ⟨trouble, herror⟩ : ∃ trouble,
      t.locateFrom (anchor.start t.working) (back.reverse ++ [part]) = .error trouble := by
    cases hr : t.locateFrom (anchor.start t.working) (back.reverse ++ [part]) with
    | error trouble => exact ⟨trouble, rfl⟩
    | ok m =>
      obtain ⟨l, hl, hdir, -⟩ := locateFrom_concat_eq_ok hr
      exact absurd hdir (hparent l hl)
  have hfirst := ensureDirectory_of_error ((locate_eq_locateFrom hlimit).trans herror)
  rw [ensureBack_of_error hfirst]
  by_cases hmissing : trouble = .missing
  · cases hpave : pave (anchor.start t.working) back.reverse t with
    | mk r u =>
      rw [hpave] at ih
      cases r with
      | none =>
        obtain ⟨fault, ih⟩ := ih
        rw [pave_append_of_none hpave]
        exact ⟨fault, by simp only [hmissing, if_true, ih]⟩
      | some l =>
        obtain ih : ensureBack anchor back t = .ok () u := ih
        obtain ⟨hl, hdir⟩ := locateFrom_of_pave hpave (t.find?_start anchor)
        rw [← working_of_pave hpave] at hl
        rw [pave_concat_of_some hpave]
        simpa only [hmissing, if_true, ih] using agrees_ensureDirectory hlimit hl hdir
  · rw [if_neg hmissing, pave_append_of_none
      (pave_of_locateFrom_error (t.find?_start anchor) herror hmissing hparent)]
    exact ⟨_, rfl⟩

lemma agrees_ensureBack (anchor : Anchor) (back : List Text) (t : FileTree)
    (hlimit : Path.byteCount (Path.text { parts := back.reverse, anchor }) ≤ pathLimit) :
    Agrees (pave (anchor.start t.working) back.reverse t) (ensureBack anchor back t) := by
  induction back with
  | nil => exact ensureDirectory_of_directory (locate_eq_locateFrom hlimit) (t.find?_start anchor)
  | cons part back ih =>
    rw [List.reverse_cons] at hlimit ⊢
    replace ih := ih (Path.byteCount_text_le (by decide) hlimit)
    by_cases hparent : ∃ l, t.locateFrom (anchor.start t.working) back.reverse = .ok l ∧
        t.find? l = some .directory
    · obtain ⟨l, hl, hdir⟩ := hparent
      exact agrees_ensureBack_of_parent hlimit ih hl hdir
    · push Not at hparent
      exact agrees_ensureBack_of_no_parent hlimit ih hparent

lemma agrees_ensureDirectories (p : Path) (t : FileTree)
    (hlimit : Path.byteCount p.text ≤ pathLimit) :
    Agrees (pave (p.anchor.start t.working) p.parts t) (ensureDirectories p t) := by
  have hback := agrees_ensureBack p.anchor p.parts.reverse t
  rw [List.reverse_reverse] at hback
  exact hback hlimit

lemma ensureDirectories_of_lt (h : pathLimit < Path.byteCount p.text) (t : FileTree) :
    ∃ fault, ensureDirectories p t = .error fault t := by
  have hlocate : t.locate p = .error .nameTooLong := if_pos h
  have hfirst := ensureDirectory_of_error hlocate
  obtain ⟨all, anchor⟩ := p
  obtain rfl | ⟨parts, part, rfl⟩ := List.eq_nil_or_concat all
  · exact ⟨_, hfirst⟩
  · rw [List.concat_eq_append, ← List.reverse_reverse parts] at hfirst
    rw [ensureDirectories, List.concat_eq_append, List.reverse_append]
    refine ⟨⟨.nameTooLong, _⟩, (ensureBack_of_error hfirst).trans (if_neg (by simp))⟩

end Making

end FileTree

end BraceMarkup
