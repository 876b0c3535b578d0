import BraceMarkup.Proofs.Files.Directories

namespace BraceMarkup

def Entry.hollow : Entry → Entry
  | .file _ => .file []
  | .directory => .directory

namespace FileTree

variable {t t' u : FileTree} {here l parts : List Text} {part : Text} {entry : Entry} {p : Path}
  {bytes : List UInt8}

structure SameShape (t t' : FileTree) : Prop where
  working : t.working = t'.working
  entry (l : List Text) : (t.find? l).map Entry.hollow = (t'.find? l).map Entry.hollow

namespace SameShape

lemma locateFrom (h : SameShape t t') (here parts : List Text) :
    t.locateFrom here parts = t'.locateFrom here parts := by
  induction parts generalizing here with
  | nil => rfl
  | cons part parts ih =>
    have hhere := h.entry here
    rw [FileTree.locateFrom, FileTree.locateFrom]
    rcases hf : t.find? here with _ | ⟨bytes⟩ | _ <;>
      rcases hf' : t'.find? here with _ | ⟨bytes'⟩ | _ <;>
      simp [hf, hf', Entry.hollow] at hhere ⊢
    simp only [ih]

lemma locate (h : SameShape t t') (p : Path) : t.locate p = t'.locate p := by
  rw [FileTree.locate, FileTree.locate, h.working, h.locateFrom]

lemma askable (h : SameShape t t') (p : Path) : t.askable p = t'.askable p := by
  rw [FileTree.askable, FileTree.askable, h.locate]

lemma has (h : SameShape t t') (p : Path) : t.has p = t'.has p := by
  unfold FileTree.has entry?
  rw [h.locate]
  cases t'.locate p with
  | error trouble => rfl
  | ok l => simpa only [Option.isSome_map] using congrArg Option.isSome (h.entry l)

end SameShape

/-- Every entry lies in a directory. -/
def Rooted (t : FileTree) : Prop :=
  ∀ ⦃l : List Text⦄ ⦃entry : Entry⦄, t.find? l = some entry →
    t.find? l.dropLast = some .directory

lemma rooted_of_entries (h : ∀ e ∈ t.entries, t.find? e.1.dropLast = some .directory) :
    t.Rooted := by
  intro l entry hl
  by_cases hworking : l <+: t.working
  · exact find?_of_isPrefix ((List.dropLast_prefix l).trans hworking)
  · rw [find?, if_neg hworking] at hl
    obtain ⟨before, after, hentries, -⟩ := List.lookup_eq_some_iff.mp hl
    exact h (l, entry) (by simp [hentries])

namespace Rooted

lemma put (h : t.Rooted) (hfree : t.find? l ≠ some .directory)
    (hparent : t.find? l.dropLast = some .directory) (entry : Entry) :
    (t.put l entry).Rooted := by
  intro m other hm
  have hne : m.dropLast ≠ l := by
    rintro rfl
    by_cases hml : m = m.dropLast
    · rw [← hml] at hparent
      exact hfree (hml ▸ hparent)
    · rw [find?_put_of_ne _ _ hml] at hm
      exact hfree (h hm)
  rw [find?_put_of_ne _ _ hne]
  by_cases hml : m = l
  · rw [hml, hparent]
  · rw [find?_put_of_ne _ _ hml] at hm
    exact h hm

lemma find?_append (h : t.Rooted) (hl : t.find? l = none) (rest : List Text) :
    t.find? (l ++ rest) = none := by
  induction rest using List.reverseRecOn with
  | nil => rwa [List.append_nil]
  | append_singleton rest last ih =>
    cases hf : t.find? (l ++ (rest ++ [last])) with
    | none => rfl
    | some entry =>
      have hparent := h hf
      rw [← List.append_assoc, List.dropLast_concat, ih] at hparent
      cases hparent

lemma find?_dropLast_follow (h : t.Rooted) (hhere : t.find? here = some .directory)
    (part : Text) : t.find? (Path.follow here part).dropLast = some .directory := by
  unfold Path.follow
  split
  · exact h (h hhere)
  · rwa [List.dropLast_concat]

lemma paveStep_up (h : t.Rooted) (hhere : t.find? here = some .directory) :
    paveStep here Path.up t = (some here.dropLast, t) := by
  have hfollow : Path.follow here Path.up = here.dropLast := if_pos rfl
  rw [paveStep_of_le (by decide), hfollow, h hhere]

lemma pave (h : t.Rooted) (hhere : t.find? here = some .directory) (parts : List Text) :
    (pave here parts t).2.Rooted := by
  induction parts generalizing here t with
  | nil => exact h
  | cons part parts ih =>
    rw [FileTree.pave]
    cases hstep : paveStep here part t with
    | mk r u =>
      cases r with
      | none =>
        obtain rfl := paveStep_eq_none hstep
        exact h
      | some l =>
        refine ih ?_ (find?_of_paveStep hstep)
        obtain ⟨-, rfl, ⟨hnone, rfl⟩ | ⟨-, rfl⟩⟩ := paveStep_eq_some hstep
        · exact h.put (by simp [hnone]) (h.find?_dropLast_follow hhere part) _
        · exact h

lemma write (h : t.Rooted) (hwrite : write p bytes t = .ok () u) : u.Rooted := by
  obtain ⟨l, hlocate, hfree, rfl⟩ := write_eq_ok hwrite
  unfold locate at hlocate
  split_ifs at hlocate
  obtain hnil | ⟨parts, part, hparts⟩ := List.eq_nil_or_concat p.parts
  · rw [hnil] at hlocate
    obtain rfl := Except.ok.inj hlocate
    exact absurd (t.find?_start p.anchor) hfree
  · rw [hparts, List.concat_eq_append] at hlocate
    obtain ⟨here, -, hhere, rfl⟩ := locateFrom_concat_eq_ok hlocate
    exact h.put hfree (h.find?_dropLast_follow hhere part) _

end Rooted

section Straight

def Straight (parts : List Text) : Prop :=
  ∀ part ∈ parts, part ≠ Path.up ∧ Path.byteCount part ≤ nameLimit

lemma exists_straight_rest (h : ¬ Straight parts) :
    ∃ before part rest, parts = before ++ part :: rest ∧
      (part = Path.up ∨ nameLimit < Path.byteCount part) ∧ Straight rest := by
  induction parts using List.reverseRecOn with
  | nil => exact absurd (fun part hpart => absurd hpart List.not_mem_nil) h
  | append_singleton parts last ih =>
    by_cases hlast : last = Path.up ∨ nameLimit < Path.byteCount last
    · exact ⟨parts, last, [], rfl, hlast, fun part hpart => absurd hpart List.not_mem_nil⟩
    rw [not_or, Nat.not_lt] at hlast
    have hparts : ¬ Straight parts := fun hparts => h fun part hpart => by
      obtain hpart | hpart := List.mem_append.mp hpart
      · exact hparts part hpart
      · exact List.mem_singleton.mp hpart ▸ hlast
    obtain ⟨before, part, rest, rfl, hpart, hrest⟩ := ih hparts
    refine ⟨before, part, rest ++ [last], by simp, hpart, fun q hq => ?_⟩
    obtain hq | hq := List.mem_append.mp hq
    · exact hrest q hq
    · exact List.mem_singleton.mp hq ▸ hlast

lemma follow_of_straight (h : Straight (part :: parts)) (here : List Text) :
    Path.follow here part = here ++ [part] :=
  if_neg (h part List.mem_cons_self).1

lemma paveStep_of_straight (h : Straight (part :: parts)) (here : List Text) (t : FileTree) :
    paveStep here part t =
      match t.find? (here ++ [part]) with
      | none => (some (here ++ [part]), t.put (here ++ [part]) .directory)
      | some .directory => (some (here ++ [part]), t)
      | some (.file _) => (none, t) := by
  have hstep := paveStep_of_le (h part List.mem_cons_self).2 here t
  rwa [follow_of_straight h] at hstep

lemma pave_of_fresh (h : Straight parts) (hfresh : ∀ rest ≠ [], t.find? (here ++ rest) = none) :
    ∃ u, pave here parts t = (some (here ++ parts), u) ∧
      ∀ rest ≠ [], u.find? (here ++ parts ++ rest) = none := by
  induction parts generalizing here t with
  | nil => exact ⟨t, by simp [pave], by simpa using hfresh⟩
  | cons part parts ih =>
    have hstep : paveStep here part t =
        (some (here ++ [part]), t.put (here ++ [part]) .directory) := by
      simp only [paveStep_of_straight h, hfresh [part] (List.cons_ne_nil _ _)]
    rw [List.append_cons here part parts, pave, hstep]
    refine ih (fun q hq => h q (List.mem_cons_of_mem part hq)) fun rest hrest => ?_
    rw [find?_put_of_ne _ _ (by simpa using hrest), List.append_assoc]
    exact hfresh _ (by simp)

lemma pave_cases (ht : t.Rooted) (hhere : t.find? here = some .directory) (h : Straight parts) :
    (pave here parts t).2 = t ∨
      ∃ u, pave here parts t = (some (here ++ parts), u) ∧
        ∀ rest ≠ [], u.find? (here ++ parts ++ rest) = none := by
  induction parts generalizing here with
  | nil => exact .inl rfl
  | cons part parts ih =>
    have hparts : Straight parts := fun q hq => h q (List.mem_cons_of_mem part hq)
    cases hl : t.find? (here ++ [part]) with
    | none =>
      have hstep : paveStep here part t =
          (some (here ++ [part]), t.put (here ++ [part]) .directory) := by
        simp only [paveStep_of_straight h, hl]
      rw [List.append_cons here part parts, pave, hstep]
      refine .inr (pave_of_fresh hparts fun rest hrest => ?_)
      rw [find?_put_of_ne _ _ (by simpa using hrest)]
      exact ht.find?_append hl rest
    | some entry =>
      cases entry with
      | file bytes => exact .inl (by simp only [pave, paveStep_of_straight h, hl])
      | directory =>
        have hstep : paveStep here part t = (some (here ++ [part]), t) := by
          simp only [paveStep_of_straight h, hl]
        rw [List.append_cons here part parts, pave, hstep]
        exact ih hl hparts

end Straight

end FileTree

end BraceMarkup
