import BraceMarkup.Proofs.Command.Delivery
import BraceMarkup.Proofs.Files.Shape

/-! What saving a file leaves behind. If it fails, nothing has changed but for directories that were
made before the path to the file turned back or came to a name that is too long. -/

namespace BraceMarkup

open FileTree (GrowsAt Straight nameLimit pathLimit)

/-- The path passes the location before a name that leads back or is too long, or anywhere on its
way if it is too long as a whole. -/
def Path.MayLeave (working : List Text) (p : Path) (l : List Text) : Prop :=
  ∃ parts rest, p.parts = parts ++ rest ∧ direct working { p with parts } = l ∧
    ((∃ part ∈ rest, part = up ∨ nameLimit < byteCount part) ∨
      rest ≠ [] ∧ pathLimit < byteCount p.text)

namespace Command.Job

variable {new : List Text → Prop} {t t' u u' : FileTree} {goal : Path} {html : Text}
  {l : List Text} {fault : FileTree.Fault}

lemma save_of_lt (h : pathLimit < Path.byteCount goal.parent.text) (html : Text) (t : FileTree) :
    ∃ fault, save goal html t = .error fault t := by
  obtain ⟨fault, hmake⟩ := FileTree.ensureDirectories_of_lt h t
  exact ⟨fault, by simp only [save, Bind.bind, EStateM.bind, hmake]⟩

lemma left_of_save_error_of_lt (hlong : pathLimit < Path.byteCount goal.parent.text)
    (h : save goal html t = .error fault u) : u = t := by
  obtain ⟨fault', hsave⟩ := save_of_lt hlong html t
  exact (EStateM.Result.error.inj (h.symm.trans hsave)).2

lemma save_of_pave_none (hfits : Path.byteCount goal.parent.text ≤ pathLimit) (html : Text)
    (h : FileTree.pave (goal.anchor.start t.working) goal.parent.parts t = (none, u)) :
    ∃ fault, save goal html t = .error fault u := by
  have hmake := FileTree.agrees_ensureDirectories goal.parent t hfits
  rw [Path.parent] at h hmake
  rw [h] at hmake
  obtain ⟨fault, hmake⟩ := hmake
  exact ⟨fault, by simp only [save, Path.parent, Bind.bind, EStateM.bind, hmake]⟩

lemma save_of_pave_some (hfits : Path.byteCount goal.parent.text ≤ pathLimit)
    (h : FileTree.pave (goal.anchor.start t.working) goal.parent.parts t = (some l, u)) :
    save goal html t = FileTree.write goal (Utf8.encode html) u := by
  have hmake := FileTree.agrees_ensureDirectories goal.parent t hfits
  rw [Path.parent] at h hmake
  rw [h] at hmake
  obtain hmake : FileTree.ensureDirectories goal.parent t = .ok () u := hmake
  simp only [save, Bind.bind, EStateM.bind, hmake]

lemma left_of_save_error (hfits : Path.byteCount goal.parent.text ≤ pathLimit)
    (h : save goal html t = .error fault u) :
    u = (FileTree.pave (goal.anchor.start t.working) goal.parent.parts t).2 := by
  cases hpave : FileTree.pave (goal.anchor.start t.working) goal.parent.parts t with
  | mk r v =>
    cases r with
    | none =>
      obtain ⟨fault', hsave⟩ := save_of_pave_none hfits html hpave
      exact (EStateM.Result.error.inj (h.symm.trans hsave)).2
    | some l =>
      rw [save_of_pave_some hfits hpave] at h
      exact FileTree.left_of_write_error h

lemma left_of_save_error_of_straight {parts rest here : List Text}
    (hfits : Path.byteCount goal.text ≤ pathLimit) (hgoal : goal.parts = parts ++ rest)
    (hrest : Straight rest) (hne : rest ≠ [])
    (hpave : FileTree.pave (goal.anchor.start t.working) parts t = (some here, u)) (hu : u.Rooted)
    (h : save goal html t = .error fault u') : u' = u := by
  have hfits' := Path.byteCount_parent_le (by decide) hfits
  obtain ⟨between, name, rfl⟩ := (List.eq_nil_or_concat rest).resolve_left hne
  rw [List.concat_eq_append] at hgoal hrest
  have hparent : goal.parent.parts = parts ++ between := by
    rw [Path.parent, hgoal, ← List.append_assoc, List.dropLast_concat]
  have hwalk : FileTree.pave (goal.anchor.start t.working) goal.parent.parts t =
      FileTree.pave here between u := by
    rw [hparent, FileTree.pave_append, hpave]
  obtain ⟨-, hhere⟩ := FileTree.locateFrom_of_pave hpave (t.find?_start goal.anchor)
  obtain hsame | ⟨v, hv, hfree⟩ := FileTree.pave_cases hu hhere fun part hpart =>
    hrest part (List.mem_append_left _ hpart)
  · rw [left_of_save_error hfits' h, hwalk, hsame]
  · -- The directory is new, so nothing is in the way of the file.
    rw [hv] at hwalk
    obtain ⟨hlocate, hdir⟩ := FileTree.locateFrom_of_pave hwalk (t.find?_start goal.anchor)
    have hname : Straight [name] := fun part hpart => hrest part (List.mem_append_right _ hpart)
    have hfound : v.locate goal = .ok (here ++ between ++ [name]) := by
      rw [FileTree.locate_eq_locateFrom hfits, FileTree.working_of_pave hwalk, hgoal,
        ← List.append_assoc, ← hparent, FileTree.locateFrom_append hlocate,
        FileTree.locateFrom_of_le hdir (hname name List.mem_cons_self).2,
        FileTree.follow_of_straight hname]
      rfl
    have hroom := hfree [name] (List.cons_ne_nil _ _)
    rw [save_of_pave_some hfits' hwalk, FileTree.write_of_locate hfound (by rw [hroom]; simp)] at h
    cases h

lemma left_of_save_error_of_not_straight {parts rest : List Text} {part : Text} (ht : t.Rooted)
    (hfits : Path.byteCount goal.text ≤ pathLimit) (hgoal : goal.parts = parts ++ part :: rest)
    (hpart : part = Path.up ∨ nameLimit < Path.byteCount part) (hrest : Straight rest)
    (h : save goal html t = .error fault u) :
    u = (FileTree.pave (goal.anchor.start t.working) parts t).2 := by
  have hleft := left_of_save_error (Path.byteCount_parent_le (by decide) hfits) h
  obtain rfl | hne := eq_or_ne rest []
  · rw [hleft, Path.parent, hgoal, List.dropLast_concat]
  have hparent : goal.parent.parts = parts ++ part :: rest.dropLast := by
    rw [Path.parent, hgoal, List.dropLast_append_of_ne_nil (List.cons_ne_nil _ _),
      List.dropLast_cons_of_ne_nil hne]
  have hstart := t.find?_start goal.anchor
  have hrooted := ht.pave hstart parts
  cases hpave : FileTree.pave (goal.anchor.start t.working) parts t with
  | mk r v =>
    rw [hpave] at hrooted
    cases r with
    | none => rw [hleft, hparent, FileTree.pave_append_of_none hpave]
    | some here =>
      obtain rfl | hlong := hpart
      · obtain ⟨-, hhere⟩ := FileTree.locateFrom_of_pave hpave hstart
        have hback := (FileTree.pave_concat_of_some hpave Path.up).trans (hrooted.paveStep_up hhere)
        rw [List.append_cons] at hgoal
        exact left_of_save_error_of_straight hfits hgoal hrest hne hback hrooted h
      · rw [hleft, hparent, FileTree.pave_append, hpave]
        simp only [FileTree.pave, FileTree.paveStep_of_lt hlong]

lemma growsAt_of_save_error_of_lt (hparent : Path.byteCount goal.parent.text ≤ pathLimit)
    (hlong : pathLimit < Path.byteCount goal.text) (h : save goal html t = .error fault u) :
    GrowsAt (goal.MayLeave t.working) t u := by
  rw [left_of_save_error hparent h]
  refine (FileTree.growsAt_pave _ goal.parent.parts t).mono ?_
  rintro l ⟨q, ⟨rest, hq⟩, rfl⟩
  obtain hnil | ⟨parts, part, hparts⟩ := List.eq_nil_or_concat goal.parts
  · have hself : goal.parent = goal := by
      cases goal
      cases hnil
      rfl
    exact absurd (hself ▸ hparent) (Nat.not_le.mpr hlong)
  · replace hq : q ++ rest = parts := by simpa [Path.parent, hparts] using hq
    refine ⟨q, rest ++ [part], ?_, rfl, .inr ⟨by simp, hlong⟩⟩
    rw [hparts, ← hq, List.concat_eq_append, List.append_assoc]

lemma growsAt_of_save_error (ht : t.Rooted) (h : save goal html t = .error fault u) :
    GrowsAt (goal.MayLeave t.working) t u := by
  by_cases hparent : pathLimit < Path.byteCount goal.parent.text
  · rw [left_of_save_error_of_lt hparent h]
    exact .refl _ _
  by_cases hlong : pathLimit < Path.byteCount goal.text
  · exact growsAt_of_save_error_of_lt (Nat.not_lt.mp hparent) hlong h
  have hfits := Nat.not_lt.mp hlong
  by_cases hstraight : Straight goal.parts
  · have hsame : u = t := by
      by_cases hnil : goal.parts = []
      · rw [left_of_save_error (Nat.not_lt.mp hparent) h, Path.parent, hnil]
        rfl
      · exact left_of_save_error_of_straight hfits (List.nil_append _).symm hstraight hnil rfl ht h
    rw [hsame]
    exact .refl _ _
  · -- What counts is the last name that leads back or is too long.
    obtain ⟨before, part, rest, hgoal, hpart, hrest⟩ := FileTree.exists_straight_rest hstraight
    rw [left_of_save_error_of_not_straight ht hfits hgoal hpart hrest h]
    refine (FileTree.growsAt_pave _ before t).mono ?_
    rintro l ⟨q, ⟨rest', rfl⟩, rfl⟩
    exact ⟨q, rest' ++ part :: rest, by rw [hgoal, List.append_assoc], rfl,
      .inl ⟨part, by simp, hpart⟩⟩

lemma exists_pave_of_save (h : save goal html t = .ok () u) :
    Path.byteCount goal.parent.text ≤ pathLimit ∧
      ∃ l v, FileTree.pave (goal.anchor.start t.working) goal.parent.parts t = (some l, v) ∧
        FileTree.write goal (Utf8.encode html) v = .ok () u := by
  by_cases hlong : pathLimit < Path.byteCount goal.parent.text
  · obtain ⟨fault, hfail⟩ := save_of_lt hlong html t
    rw [h] at hfail
    cases hfail
  have hfits := Nat.not_lt.mp hlong
  refine ⟨hfits, ?_⟩
  cases hpave : FileTree.pave (goal.anchor.start t.working) goal.parent.parts t with
  | mk r v =>
    cases r with
    | none =>
      obtain ⟨fault, hfail⟩ := save_of_pave_none hfits html hpave
      rw [h] at hfail
      cases hfail
    | some l =>
      rw [save_of_pave_some hfits hpave] at h
      exact ⟨l, v, rfl, h⟩

lemma save_of_growsAt (hgrows : GrowsAt new t t') (h : save goal html t' = .ok () u') :
    ∃ u, save goal html t = .ok () u ∧ GrowsAt new u u' := by
  obtain ⟨hfits, l, v', hpave, hwrite⟩ := exists_pave_of_save h
  rw [hgrows.working] at hpave
  obtain ⟨v, hv, hgrows⟩ := FileTree.pave_of_growsAt hgrows hpave
  obtain ⟨m, hlocate, hfree, rfl⟩ := FileTree.write_eq_ok hwrite
  obtain ⟨hl, hdir⟩ := FileTree.locateFrom_of_pave hv (t.find?_start goal.anchor)
  rw [← FileTree.working_of_pave hv] at hl
  rw [FileTree.locate_of_parent hgrows hl hdir] at hlocate
  have hfree' : v.find? m ≠ some .directory := fun hm => hfree (hgrows.directory hm)
  refine ⟨v.put m _, ?_, hgrows.put (FileTree.not_prefix_of_find? hfree') _⟩
  rw [save_of_pave_some hfits hv]
  exact FileTree.write_of_locate hlocate hfree' _

lemma rooted_save (ht : t.Rooted) (goal : Path) (html : Text) :
    (FileTree.left (save goal html t)).Rooted := by
  have hpaved := ht.pave (t.find?_start goal.anchor) goal.parent.parts
  cases hsave : save goal html t with
  | error fault u =>
    by_cases hlong : pathLimit < Path.byteCount goal.parent.text
    · rwa [left_of_save_error_of_lt hlong hsave]
    · rw [left_of_save_error (Nat.not_lt.mp hlong) hsave]
      exact hpaved
  | ok _ u =>
    obtain ⟨-, l, v, hpave, hwrite⟩ := exists_pave_of_save hsave
    rw [hpave] at hpaved
    exact hpaved.write hwrite

end Command.Job

end BraceMarkup
