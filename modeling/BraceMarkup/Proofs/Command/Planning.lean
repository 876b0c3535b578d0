import BraceMarkup.Command.Run
import BraceMarkup.Proofs.Files.Updates

namespace BraceMarkup.Command

section Except

variable {ε ε' α β : Type}

lemma bind_eq_ok_iff {x : Except ε α} {g : α → Except ε β} {b : β} :
    x >>= g = .ok b ↔ ∃ a, x = .ok a ∧ g a = .ok b := by
  cases x <;> simp [Bind.bind, Except.bind]

lemma pure_eq_ok_iff {a b : α} : (pure a : Except ε α) = .ok b ↔ a = b := by
  simp [Pure.pure, Except.pure]

lemma mapError_eq_ok_iff {f : ε → ε'} {x : Except ε α} {a : α} :
    x.mapError f = .ok a ↔ x = .ok a := by
  cases x <;> simp [Except.mapError]

lemma exists_of_mem_mapM {f : α → Except ε β} {xs : List α} {ys : List β} {y : β}
    (h : xs.mapM f = .ok ys) (hy : y ∈ ys) : ∃ x ∈ xs, f x = .ok y := by
  induction xs generalizing ys with
  | nil =>
    rw [List.mapM_nil, pure_eq_ok_iff] at h
    simp [← h] at hy
  | cons x xs ih =>
    simp only [List.mapM_cons, bind_eq_ok_iff, pure_eq_ok_iff] at h
    obtain ⟨z, hz, zs, hzs, rfl⟩ := h
    obtain rfl | hy := List.mem_cons.mp hy
    · exact ⟨x, List.mem_cons_self, hz⟩
    · obtain ⟨w, hw, hf⟩ := ih hzs hy
      exact ⟨w, List.mem_cons_of_mem x hw, hf⟩

end Except

variable {t : FileTree} {extension : Text} {destination : Destination} {toStdout : Bool}
  {p q : Path} {paths : List Path} {j : Job} {jobs : List Job}

lemma isFile_of_has (h : t.has p) (hdir : ¬ t.isDirectory p) : t.isFile p := by
  unfold FileTree.has at h
  unfold FileTree.isDirectory at hdir
  unfold FileTree.isFile
  cases he : t.entry? p with
  | none => simp [he] at h
  | some entry =>
    cases entry with
    | file bytes => rfl
    | directory => simp [he] at hdir

lemma isFile_of_mem_sources {found : List Path} (h : sources t extension p = .ok found)
    (hhas : t.has p) (hq : q ∈ found) : t.isFile q := by
  unfold sources at h
  obtain ⟨-, -, h⟩ := bind_eq_ok_iff.mp h
  split_ifs at h with hdir
  · simp only [bind_eq_ok_iff, pure_eq_ok_iff] at h
    obtain ⟨-, -, selected, -, rfl⟩ := h
    exact (List.mem_filter.mp (List.mem_mergeSort.mp hq)).2
  · obtain rfl := pure_eq_ok_iff.mp h
    obtain rfl := List.mem_singleton.mp hq
    exact isFile_of_has hhas hdir

lemma exists_of_mem_plan (h : plan t extension destination toStdout paths = .ok jobs)
    (hj : j ∈ jobs) : ∃ p ∈ paths, ∃ found, sources t extension p = .ok found ∧ j.source ∈ found ∧
      ∃ root, target root destination toStdout j.source = .ok j.target := by
  unfold plan at h
  simp only [bind_eq_ok_iff, pure_eq_ok_iff] at h
  obtain ⟨lists, hlists, rfl⟩ := h
  obtain ⟨list, hlist, hj⟩ := List.mem_flatten.mp hj
  obtain ⟨p, hp, hjobs⟩ := exists_of_mem_mapM hlists hlist
  unfold jobsOf at hjobs
  obtain ⟨found, hfound, hmap⟩ := bind_eq_ok_iff.mp hjobs
  obtain ⟨source, hsource, hjob⟩ := exists_of_mem_mapM hmap hj
  simp only [bind_eq_ok_iff, pure_eq_ok_iff] at hjob
  obtain ⟨goal, hgoal, rfl⟩ := hjob
  exact ⟨p, hp, found, hfound, hsource, _, hgoal⟩

lemma exists_target_of_mem_plan (h : plan t extension destination false paths = .ok jobs)
    (hj : j ∈ jobs) : ∃ goal, j.target = some goal := by
  obtain ⟨-, -, -, -, -, root, htarget⟩ := exists_of_mem_plan h hj
  unfold target at htarget
  cases destination with
  | beside => exact ⟨_, (Except.ok.inj htarget).symm⟩
  | below dir => exact ⟨_, (Except.ok.inj htarget).symm⟩
  | unset => simp at htarget

/-- The arguments are accepted, all their paths are there, and they stand for the given jobs. -/
structure Planned (arguments : List Text) (files : FileTree) (o : Options) (jobs : List Job) :
    Prop where
  options : Options.ofArguments arguments = .ok o
  present : ∀ p ∈ o.paths, files.has p
  plan : ∃ extension, o.extension = some extension ∧
    plan files (dotted extension) o.destination o.toStdout o.paths = .ok jobs

namespace Planned

variable {arguments : List Text} {files : FileTree} {o : Options} {status : Status} {c : Console}

lemma exists_read_source (h : Planned arguments files o jobs) (hj : j ∈ jobs) :
    ∃ bytes, files.read j.source = .ok bytes := by
  obtain ⟨extension, -, hplan⟩ := h.plan
  obtain ⟨p, hp, found, hfound, hsource, -⟩ := exists_of_mem_plan hplan hj
  exact FileTree.isFile_iff_exists_read.mp (isFile_of_mem_sources hfound (h.present p hp) hsource)

lemma exists_target (h : Planned arguments files o jobs) (hout : o.toStdout = false)
    (hj : j ∈ jobs) : ∃ goal, j.target = some goal := by
  obtain ⟨extension, -, hplan⟩ := h.plan
  rw [hout] at hplan
  exact exists_target_of_mem_plan hplan hj

lemma runAll_eq (h : Planned arguments files o jobs) (hj : j ∈ jobs)
    (hrun : run arguments files = .ok (status, c)) :
    runAll (Journal.opened o.verbosity "stderr".toList) jobs { files } = (status, c) := by
  obtain ⟨extension, hext, hplan⟩ := h.plan
  have hmissing : o.paths.filter (fun p => !files.has p) = [] := by
    simpa [List.filter_eq_nil_iff] using h.present
  unfold run at hrun
  rw [h.options] at hrun
  dsimp only at hrun
  unfold runOptions at hrun
  obtain ⟨-, -, hrun⟩ := bind_eq_ok_iff.mp hrun
  simp only [hmissing, hext, ne_eq, not_true_eq_false, if_false, pure_bind] at hrun
  obtain ⟨planned, hplanned, hrun⟩ := bind_eq_ok_iff.mp hrun
  obtain rfl : jobs = planned := Except.ok.inj (hplan.symm.trans hplanned)
  split_ifs at hrun with hnone hnull
  · simp [hnone] at hj
  · obtain ⟨_, hthrow, _⟩ := bind_eq_ok_iff.mp hrun
    cases hthrow
  · exact pure_eq_ok_iff.mp hrun

end Planned

end BraceMarkup.Command
