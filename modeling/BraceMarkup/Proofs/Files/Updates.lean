import BraceMarkup.Files.Tree
import Mathlib.Data.List.Basic
import Mathlib.Tactic.Basic

namespace BraceMarkup.FileTree

variable {new new' : List Text → List UInt8 → Prop} {t t' t'' : FileTree} {l : List Text}
  {p : Path} {bytes : List UInt8}

/-- From `t` to `t'` directories are kept, files stay files, and what they hold they held before or
is allowed by `new`. -/
structure Updates (new : List Text → List UInt8 → Prop) (t t' : FileTree) : Prop where
  working : t'.working = t.working
  directory {l : List Text} : t.find? l = some .directory → t'.find? l = some .directory
  file {l : List Text} {bytes : List UInt8} : t.find? l = some (.file bytes) →
    ∃ bytes', t'.find? l = some (.file bytes')
  held {l : List Text} {bytes : List UInt8} : t'.find? l = some (.file bytes) →
    t.find? l = some (.file bytes) ∨ new l bytes

namespace Updates

lemma refl (new : List Text → List UInt8 → Prop) (t : FileTree) : Updates new t t :=
  ⟨rfl, id, fun h => ⟨_, h⟩, .inl⟩

lemma trans (h : Updates new t t') (h' : Updates new t' t'') : Updates new t t'' where
  working := h'.working.trans h.working
  directory hl := h'.directory (h.directory hl)
  file hl := (h.file hl).elim fun _ => h'.file
  held hl := (h'.held hl).elim h.held .inr

lemma mono (h : Updates new t t') (hnew : ∀ l bytes, new l bytes → new' l bytes) :
    Updates new' t t' where
  working := h.working
  directory := h.directory
  file := h.file
  held hl := (h.held hl).imp_right (hnew _ _)

end Updates

lemma find?_of_isPrefix (h : l <+: t.working) : t.find? l = some .directory :=
  if_pos h

lemma not_prefix_of_find? (h : t.find? l ≠ some .directory) : ¬ l <+: t.working :=
  fun hl => h (find?_of_isPrefix hl)

lemma updates_put {entry : Entry} (hdir : t.find? l ≠ some .directory)
    (hfile : ∀ bytes, t.find? l = some (.file bytes) → ∃ bytes', entry = .file bytes') :
    Updates (fun m bytes => m = l ∧ entry = .file bytes) t (t.put l entry) := by
  have hput := find?_put_self t entry (not_prefix_of_find? hdir)
  refine ⟨rfl, fun {m} hm => ?_, fun {m b} hm => ?_, fun {m b} hm => ?_⟩ <;> by_cases hml : m = l
  · exact absurd (hml ▸ hm) hdir
  · rwa [find?_put_of_ne t _ hml]
  · obtain ⟨bytes, hbytes⟩ := hfile b (hml ▸ hm)
    exact ⟨bytes, by rw [hml, hput, hbytes]⟩
  · exact ⟨b, by rwa [find?_put_of_ne t _ hml]⟩
  · rw [hml, hput] at hm
    exact .inr ⟨hml, Option.some.inj hm⟩
  · exact .inl (by rwa [find?_put_of_ne t _ hml] at hm)

section Locations

variable {here parts : List Text}

lemma eq_foldl_of_locateFrom (h : t.locateFrom here parts = .ok l) :
    l = parts.foldl Path.follow here := by
  induction parts generalizing here with
  | nil => exact (Except.ok.inj h).symm
  | cons part parts ih =>
    unfold locateFrom at h
    split at h
    next => cases h
    next => cases h
    next =>
      split_ifs at h
      exact ih h

lemma eq_direct_of_locate (h : t.locate p = .ok l) : l = p.direct t.working := by
  unfold locate at h
  split_ifs at h
  exact eq_foldl_of_locateFrom h

lemma Updates.locateFrom (h : Updates new t t') (hl : t.locateFrom here parts = .ok l) :
    t'.locateFrom here parts = .ok l := by
  induction parts generalizing here with
  | nil => exact hl
  | cons part parts ih =>
    unfold FileTree.locateFrom at hl ⊢
    split at hl
    next => cases hl
    next => cases hl
    next hhere =>
      rw [h.directory hhere]
      dsimp only
      split_ifs at hl ⊢
      exact ih hl

lemma Updates.locate (h : Updates new t t') (hl : t.locate p = .ok l) : t'.locate p = .ok l := by
  unfold FileTree.locate at hl ⊢
  split_ifs at hl ⊢
  rw [h.working]
  exact h.locateFrom hl

end Locations

lemma read_eq_ok_iff : t.read p = .ok bytes ↔
    t.locate p = .ok (p.direct t.working) ∧ t.find? (p.direct t.working) = some (.file bytes) := by
  unfold read
  cases hl : t.locate p with
  | error trouble => simp
  | ok l =>
    obtain rfl := eq_direct_of_locate hl
    cases hf : t.find? (p.direct t.working) with
    | none => simp [hf]
    | some entry => cases entry <;> simp [hf]

lemma eq_of_read_of_direct {q : Path} {bytes' : List UInt8} (hp : t.read p = .ok bytes)
    (hq : t.read q = .ok bytes') (h : p.direct t.working = q.direct t.working) :
    bytes = bytes' := by
  have hfile := (read_eq_ok_iff.mp hp).2
  rw [h, (read_eq_ok_iff.mp hq).2] at hfile
  cases hfile
  rfl

lemma isFile_iff_exists_read : t.isFile p ↔ ∃ bytes, t.read p = .ok bytes := by
  unfold isFile entry? read
  cases t.locate p with
  | error trouble => simp
  | ok l =>
    cases hf : t.find? l with
    | none => simp [hf]
    | some entry => cases entry <;> simp [hf]

lemma Updates.exists_read (h : Updates new t t') (hr : t.read p = .ok bytes) :
    ∃ bytes', t'.read p = .ok bytes' ∧ (bytes' = bytes ∨ new (p.direct t.working) bytes') := by
  obtain ⟨hl, hf⟩ := read_eq_ok_iff.mp hr
  obtain ⟨bytes', hf'⟩ := h.file hf
  refine ⟨bytes', ?_, (h.held hf').imp_left fun hold => ?_⟩
  · rw [read_eq_ok_iff, h.working]
    exact ⟨h.locate hl, hf'⟩
  · rw [hf] at hold
    cases hold
    rfl

lemma Updates.read (h : Updates new t t') (hr : t.read p = .ok bytes)
    (hnew : ∀ bytes', new (p.direct t.working) bytes' → bytes' = bytes) :
    t'.read p = .ok bytes := by
  obtain ⟨bytes', hr', rfl | hold⟩ := h.exists_read hr
  · exact hr'
  · rwa [hnew bytes' hold] at hr'

section Changes

variable {α β : Type}

def left : EStateM.Result Fault FileTree α → FileTree
  | .ok _ t | .error _ t => t

def OnlyUpdates (new : List Text → List UInt8 → Prop) (x : Change α) : Prop :=
  ∀ t, Updates new t (left (x t))

lemma OnlyUpdates.bind {x : Change α} {g : α → Change β} (hx : OnlyUpdates new x)
    (hg : ∀ a, OnlyUpdates new (g a)) : OnlyUpdates new (x >>= g) := by
  intro t
  have hxt := hx t
  simp only [Bind.bind, EStateM.bind]
  cases hr : x t with
  | error fault t' => rwa [hr] at hxt
  | ok a t' =>
    rw [hr] at hxt
    exact hxt.trans (hg a t')

lemma onlyUpdates_makeDirectory (p : Path) : OnlyUpdates (fun _ _ => False) (makeDirectory p) := by
  intro t
  unfold makeDirectory
  split
  next => exact .refl _ t
  next =>
    split
    next => exact .refl _ t
    next h =>
      refine (updates_put (by simp [h]) (by simp [h])).mono ?_
      rintro m bytes ⟨-, hentry⟩
      cases hentry

lemma onlyUpdates_ensureDirectory (p : Path) :
    OnlyUpdates (fun _ _ => False) (ensureDirectory p) := by
  intro t
  have hmake := onlyUpdates_makeDirectory p t
  unfold ensureDirectory
  split
  next h => rwa [h] at hmake
  next h =>
    rw [h] at hmake
    split_ifs <;> exact hmake

lemma onlyUpdates_ensureBack (anchor : Anchor) (back : List Text) :
    OnlyUpdates (fun _ _ => False) (ensureBack anchor back) := by
  induction back with
  | nil => exact onlyUpdates_ensureDirectory _
  | cons part back ih =>
    intro t
    have hensure :=
      onlyUpdates_ensureDirectory { parts := (part :: back).reverse, anchor } t
    unfold ensureBack
    split
    next h => rwa [h] at hensure
    next t' h =>
      rw [h] at hensure
      split_ifs
      · exact hensure.trans (ih.bind (fun _ => onlyUpdates_ensureDirectory _) t')
      · exact hensure

lemma onlyUpdates_ensureDirectories (p : Path) :
    OnlyUpdates (fun _ _ => False) (ensureDirectories p) :=
  onlyUpdates_ensureBack _ _

lemma left_of_write_error {fault : Fault} (h : write p bytes t = .error fault t') : t' = t := by
  unfold write at h
  split at h
  next => exact (EStateM.Result.error.inj h).2.symm
  next =>
    split at h
    next => exact (EStateM.Result.error.inj h).2.symm
    next => simp at h
    next => simp at h

lemma updates_put_file (hl : t.locate p = .ok l) (hfree : t.find? l ≠ some .directory)
    (bytes : List UInt8) :
    Updates (fun m b => m = p.direct t.working ∧ b = bytes) t (t.put l (.file bytes)) ∧
      (t.put l (.file bytes)).read p = .ok bytes := by
  obtain rfl := eq_direct_of_locate hl
  have hup := updates_put hfree fun _ _ => ⟨bytes, rfl⟩
  have hput := find?_put_self t (.file bytes) (not_prefix_of_find? hfree)
  refine ⟨hup.mono ?_, read_eq_ok_iff.mpr ⟨hup.locate hl, hput⟩⟩
  rintro m b ⟨rfl, hentry⟩
  cases hentry
  exact ⟨rfl, rfl⟩

lemma updates_of_write (h : write p bytes t = .ok () t') :
    Updates (fun l b => l = p.direct t.working ∧ b = bytes) t t' ∧ t'.read p = .ok bytes := by
  unfold write at h
  split at h
  next => cases h
  next l hl =>
    split at h
    next => cases h
    next hf =>
      cases h
      exact updates_put_file hl (by simp [hf]) bytes
    next hf =>
      cases h
      exact updates_put_file hl (by simp [hf]) bytes

end Changes

end BraceMarkup.FileTree
