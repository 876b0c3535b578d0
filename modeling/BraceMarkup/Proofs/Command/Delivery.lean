import BraceMarkup.Proofs.Command.Planning

namespace BraceMarkup.Command

variable {j k : Job} {jobs before after : List Job} {journal : Journal} {c : Console}
  {files t t' : FileTree} {goal : Path} {html : Text} {bytes : List UInt8}

namespace Job

lemma sourceText_of_read {k : Job} (h : t.read j.source = .ok bytes)
    (h' : t'.read k.source = .ok bytes) : j.sourceText t = k.sourceText t' := by
  simp [sourceText, h, h']

structure Delivers (job : Job) (t : FileTree) (goal : Path) (html : Text) : Prop where
  target : job.target = some goal
  elsewhere : goal.direct t.working ≠ job.sourceAt t.working
  html : ∃ text, job.sourceText t = .ok text ∧ transpile {} text = .ok html

lemma fst_transpileLogged (s : Settings) (journal : Option Journal) (file : Option Text)
    (source : Text) : (transpileLogged s journal file source).1 = transpile s source := by
  unfold transpileLogged transpile
  cases parse source <;> rfl

lemma html_eq_ok (h : (j.html journal files).1 = .ok html) :
    ¬ j.isOverwriting files.working ∧ ∃ text, j.sourceText files = .ok text ∧ transpile {} text = .ok html := by
  unfold Job.html at h
  split_ifs at h with hover
  refine ⟨hover, ?_⟩
  split at h
  next => cases h
  next text htext =>
    refine ⟨text, htext, ?_⟩
    rw [← fst_transpileLogged {} (some journal) (some j.source.text)]
    exact mapError_eq_ok_iff.mp h

lemma save_cases (goal : Path) (text : Text) (t : FileTree) :
    (∃ fault t', save goal text t = .error fault t' ∧ t.Updates (fun _ _ => False) t') ∨
    ∃ t', save goal text t = .ok () t' ∧ t'.read goal = .ok (Utf8.encode text) ∧
      t.Updates (fun l b => l = goal.direct t.working ∧ b = Utf8.encode text) t' := by
  have hmake := FileTree.onlyUpdates_ensureDirectories goal.parent t
  simp only [save, Bind.bind, EStateM.bind]
  cases hm : FileTree.ensureDirectories goal.parent t with
  | error fault t₁ =>
    rw [hm] at hmake
    exact .inl ⟨fault, t₁, rfl, hmake⟩
  | ok _ t₁ =>
    rw [hm] at hmake
    cases hw : FileTree.write goal (Utf8.encode text) t₁ with
    | error fault t₂ =>
      obtain rfl := FileTree.left_of_write_error hw
      exact .inl ⟨fault, t₂, hw, hmake⟩
    | ok _ t₂ =>
      obtain ⟨hupdates, hread⟩ := FileTree.updates_of_write hw
      have hworking : t₁.working = t.working := hmake.working
      rw [hworking] at hupdates
      exact .inr ⟨t₂, hw, hread, (hmake.mono fun _ _ => False.elim).trans hupdates⟩

lemma deliver_of_save_error {fault : FileTree.Fault} (journal : Journal) (c : Console)
    (h : j.target = some goal) (hsave : save goal html c.files = .error fault t') :
    (j.deliver journal html c).1 = false ∧ (j.deliver journal html c).2.files = t' := by
  simp [deliver, h, hsave, Console.note]

lemma deliver_of_save_ok (journal : Journal) (c : Console) (h : j.target = some goal)
    (hsave : save goal html c.files = .ok () t') :
    (j.deliver journal html c).2.files = t' := by
  simp [deliver, h, hsave, Console.note]

lemma run_cases (j : Job) (journal : Journal) (c : Console) :
    ((j.run journal c).1 = false ∧ c.files.Updates (fun _ _ => False) (j.run journal c).2.files) ∨
    (j.target = none ∧ (j.run journal c).2.files = c.files) ∨
    ∃ goal html, j.Delivers c.files goal html ∧
      (j.run journal c).2.files.read goal = .ok (Utf8.encode html) ∧
      c.files.Updates (fun l b => l = goal.direct c.files.working ∧ b = Utf8.encode html)
        (j.run journal c).2.files := by
  unfold run
  split
  next message log hhtml => exact .inl ⟨rfl, .refl _ _⟩
  next html log hhtml =>
    obtain ⟨hover, htext⟩ := html_eq_ok (congrArg Prod.fst hhtml)
    cases hgoal : j.target with
    | none => exact .inr (.inl ⟨rfl, by simp [deliver, hgoal]⟩)
    | some goal =>
      have helse : goal.direct c.files.working ≠ j.sourceAt c.files.working := by
        simpa [isOverwriting, targetAt, hgoal] using hover
      obtain ⟨fault, t', hsave, hup⟩ | ⟨t', hsave, hread, hup⟩ := save_cases goal html c.files
      · obtain ⟨hfail, rfl⟩ :=
          deliver_of_save_error journal { c with log := c.log ++ log } hgoal hsave
        exact .inl ⟨hfail, hup⟩
      · obtain rfl := deliver_of_save_ok journal { c with log := c.log ++ log } hgoal hsave
        exact .inr (.inr ⟨goal, html, ⟨hgoal, helse, htext⟩, hread, hup⟩)

def Writes (job : Job) (working l : List Text) (bytes : List UInt8) : Prop :=
  job.targetAt working = some l ∧ l ≠ job.sourceAt working ∧
    ∃ text html, transpile {} text = .ok html ∧ Utf8.encode html = bytes

lemma updates_run (j : Job) (journal : Journal) (c : Console) :
    c.files.Updates (j.Writes c.files.working) (j.run journal c).2.files := by
  obtain ⟨-, hup⟩ | ⟨-, hsame⟩ | ⟨goal, html, hd, -, hup⟩ := j.run_cases journal c
  · exact hup.mono fun _ _ => False.elim
  · rw [hsame]
    exact .refl _ _
  · refine hup.mono ?_
    rintro l b ⟨rfl, rfl⟩
    obtain ⟨text, -, htext⟩ := hd.html
    exact ⟨by simp [targetAt, hd.target], hd.elsewhere, text, html, htext, rfl⟩

lemma delivers_of_run (h : (j.run journal c).1 = true) (hgoal : j.target = some goal) :
    ∃ html, j.Delivers c.files goal html ∧
      (j.run journal c).2.files.read goal = .ok (Utf8.encode html) := by
  obtain ⟨hfail, -⟩ | ⟨hnone, -⟩ | ⟨goal', html, hd, hread, -⟩ := j.run_cases journal c
  · simp [hfail] at h
  · simp [hnone] at hgoal
  · obtain rfl : goal' = goal := Option.some.inj (hd.target.symm.trans hgoal)
    exact ⟨html, hd, hread⟩

/-- An earlier job overwrites the source of a later one, or has another source and the same
target. -/
def Disturbs (working : List Text) (earlier later : Job) : Prop :=
  earlier.targetAt working = some (later.sourceAt working) ∨
    earlier.targetAt working = later.targetAt working ∧
      earlier.sourceAt working ≠ later.sourceAt working

instance (working : List Text) (earlier later : Job) :
    Decidable (earlier.Disturbs working later) :=
  inferInstanceAs (Decidable (_ ∨ _))

end Job

section Runs

variable {working : List Text}

lemma updates_runJobs (journal : Journal) (jobs : List Job) (c : Console) :
    c.files.Updates (fun l b => ∃ k ∈ jobs, k.Writes c.files.working l b)
      (runJobs journal jobs c).2.files := by
  induction jobs generalizing c with
  | nil => exact .refl _ _
  | cons job jobs ih =>
    have hfirst := job.updates_run journal c
    have hrest := ih (job.run journal c).2
    rw [hfirst.working] at hrest
    refine (hfirst.mono fun l b h => ⟨job, List.mem_cons_self, h⟩).trans (hrest.mono ?_)
    rintro l b ⟨k, hk, h⟩
    exact ⟨k, List.mem_cons_of_mem job hk, h⟩

lemma working_runJobs (journal : Journal) (jobs : List Job) (c : Console) :
    (runJobs journal jobs c).2.files.working = c.files.working :=
  (updates_runJobs journal jobs c).working

lemma runJobs_append_snd (before after : List Job) :
    (runJobs journal (before ++ after) c).2 =
      (runJobs journal after (runJobs journal before c).2).2 := by
  induction before generalizing c with
  | nil => rfl
  | cons job before ih => exact ih

lemma run_of_runJobs_append (h : (runJobs journal (before ++ j :: after) c).1 = 0) :
    (j.run journal (runJobs journal before c).2).1 = true := by
  induction before generalizing c with
  | nil =>
    simp only [List.nil_append, runJobs] at h
    split_ifs at h with hworked
    exact hworked
  | cons job before ih =>
    refine ih (c := (job.run journal c).2) ?_
    simp only [List.cons_append, runJobs] at h
    split_ifs at h
    exact h

lemma files_runAll (journal : Journal) (jobs : List Job) (c : Console) :
    (runAll journal jobs c).2.files = (runJobs journal jobs c).2.files := by
  unfold runAll
  split
  next hrun =>
    rw [hrun]
    rfl
  next hrun =>
    rw [hrun]
    rfl

lemma runJobs_of_done (h : (runAll journal jobs c).1 = .done) : (runJobs journal jobs c).1 = 0 := by
  unfold runAll at h
  split at h
  next hzero => rw [hzero]
  next => cases h

lemma read_of_last_writer (hworked : (runJobs journal (before ++ k :: after) c).1 = 0)
    (hgoal : k.target = some goal) (hread : c.files.read k.source = .ok bytes)
    (hbefore : ∀ m ∈ before, m.targetAt c.files.working ≠ some (k.sourceAt c.files.working))
    (hafter : ∀ m ∈ after, m.targetAt c.files.working ≠ some (goal.direct c.files.working)) :
    ∃ html, k.Delivers c.files goal html ∧
      (runJobs journal (before ++ k :: after) c).2.files.read goal = .ok (Utf8.encode html) := by
  have hsource : (runJobs journal before c).2.files.read k.source = .ok bytes := by
    refine (updates_runJobs journal before c).read hread ?_
    rintro b ⟨m, hm, hw⟩
    exact absurd hw.1 (hbefore m hm)
  -- The job works on what the earlier ones have left, but its source is as it was.
  have hworking := working_runJobs journal before c
  obtain ⟨html, hd, hwritten⟩ := Job.delivers_of_run (run_of_runJobs_append hworked) hgoal
  refine ⟨html, ⟨hd.target, hworking ▸ hd.elsewhere, ?_⟩, ?_⟩
  · rw [Job.sourceText_of_read hread hsource]
    exact hd.html
  · rw [runJobs_append_snd]
    let left := (k.run journal (runJobs journal before c).2).2
    have hplace : left.files.working = c.files.working :=
      (k.updates_run journal (runJobs journal before c).2).working.trans hworking
    refine (updates_runJobs journal after left).read hwritten ?_
    rintro b ⟨m, hm, hw⟩
    rw [hplace] at hw
    exact absurd hw.1 (hafter m hm)

lemma exists_read_target (hworked : (runJobs journal jobs c).1 = 0) (hj : j ∈ jobs)
    (hgoal : j.target = some goal) :
    ∃ bytes, (runJobs journal jobs c).2.files.read goal = .ok bytes := by
  obtain ⟨before, after, rfl⟩ := List.append_of_mem hj
  obtain ⟨html, -, hwritten⟩ := Job.delivers_of_run (run_of_runJobs_append hworked) hgoal
  rw [runJobs_append_snd]
  obtain ⟨bytes, hbytes, -⟩ := (updates_runJobs journal after _).exists_read hwritten
  exact ⟨bytes, hbytes⟩

lemma exists_last_writer (working : List Text) (hj : j ∈ jobs) :
    ∃ before k after, jobs = before ++ k :: after ∧ k.targetAt working = j.targetAt working ∧
      ∀ m ∈ after, m.targetAt working ≠ j.targetAt working := by
  let p : Job → Bool := fun m => m.targetAt working = j.targetAt working
  obtain ⟨k, after, before, hafter, hk, hjobs, -⟩ :=
    List.exists_of_eraseP (p := p) (List.mem_reverse.mpr hj) (by simp [p])
  refine ⟨before.reverse, k, after.reverse, ?_, by simpa [p] using hk, ?_⟩
  · simpa using congrArg List.reverse hjobs
  · intro m hm
    simpa [p] using hafter m (List.mem_reverse.mp hm)

lemma source_eq_of_last_writer (hj : j ∈ before ++ k :: after)
    (hk : k.targetAt working = j.targetAt working) (hbefore : ∀ m ∈ before, ¬ m.Disturbs working k)
    (hafter : ∀ m ∈ after, m.targetAt working ≠ j.targetAt working) :
    j.sourceAt working = k.sourceAt working := by
  obtain hj | hj := List.mem_append.mp hj
  · by_contra hne
    exact hbefore j hj (.inr ⟨hk.symm, hne⟩)
  · obtain rfl | hj := List.mem_cons.mp hj
    · rfl
    · exact absurd rfl (hafter j hj)

lemma read_target_of_undisturbed (hworked : (runJobs journal jobs c).1 = 0) (hj : j ∈ jobs)
    (hgoal : j.target = some goal)
    (hsources : ∀ k ∈ jobs, ∃ bytes, c.files.read k.source = .ok bytes)
    (hfree : jobs.Pairwise fun earlier later =>
      later.targetAt c.files.working = j.targetAt c.files.working →
        ¬ earlier.Disturbs c.files.working later) :
    ∃ text html, j.sourceText c.files = .ok text ∧ transpile {} text = .ok html ∧
      (runJobs journal jobs c).2.files.read goal = .ok (Utf8.encode html) := by
  obtain ⟨written, hwritten⟩ := exists_read_target hworked hj hgoal
  -- The last job with this target decides what it holds, and has the same source.
  obtain ⟨before, k, after, rfl, hk, hafter⟩ := exists_last_writer c.files.working hj
  have hbefore : ∀ m ∈ before, ¬ m.Disturbs c.files.working k := fun m hm =>
    (List.pairwise_append.mp hfree).2.2 m hm k List.mem_cons_self hk
  have hsame := source_eq_of_last_writer hj hk hbefore hafter
  have hplace : j.targetAt c.files.working = some (goal.direct c.files.working) := by
    rw [Job.targetAt, hgoal]
    rfl
  rw [hplace] at hk hafter
  obtain ⟨kgoal, hkgoal, hdirect⟩ := Option.map_eq_some_iff.mp hk
  obtain ⟨bytes, hread⟩ := hsources j hj
  obtain ⟨kbytes, hkread⟩ := hsources k (by simp)
  obtain rfl := FileTree.eq_of_read_of_direct hread hkread hsame
  obtain ⟨html, hd, hheld⟩ := read_of_last_writer hworked hkgoal hkread
    (fun m hm hclash => hbefore m hm (.inl hclash))
    (fun m hm => hdirect ▸ hafter m hm)
  obtain ⟨text, htext, hhtml⟩ := hd.html
  refine ⟨text, html, ?_, hhtml, ?_⟩
  · rw [← htext]
    exact Job.sourceText_of_read hread hkread
  · rw [← working_runJobs journal (before ++ k :: after) c] at hdirect
    rw [hwritten, FileTree.eq_of_read_of_direct hwritten hheld hdirect.symm]

end Runs

variable {arguments : List Text} {o : Options} {status : Status}

/-- A planned source keeps its bytes unless it is the target of a job with another source, and
then it may hold HTML. -/
theorem source_kept_or_overwritten (hplan : Planned arguments files o jobs)
    (hrun : run arguments files = .ok (status, c)) (hj : j ∈ jobs) :
    ∃ bytes, files.read j.source = .ok bytes ∧
      (c.files.read j.source = .ok bytes ∨
        ∃ k ∈ jobs, k.sourceAt files.working ≠ j.sourceAt files.working ∧
          k.targetAt files.working = some (j.sourceAt files.working) ∧
          ∃ text html, transpile {} text = .ok html ∧
            c.files.read j.source = .ok (Utf8.encode html)) := by
  obtain ⟨bytes, hread⟩ := hplan.exists_read_source hj
  have hup := updates_runJobs (Journal.opened o.verbosity "stderr".toList) jobs { files }
  rw [← files_runAll, hplan.runAll_eq hj hrun] at hup
  refine ⟨bytes, hread, ?_⟩
  obtain ⟨bytes', hread', rfl | ⟨k, hk, hgoal, helse, text, html, htext, rfl⟩⟩ :=
    hup.exists_read hread
  · exact .inl hread'
  · exact .inr ⟨k, hk, helse.symm, hgoal, text, html, htext, hread'⟩

deriving instance DecidableEq for Console

section Neighbours

def neighbours : FileTree where
  working := ["w".toList]
  entries := [(["w".toList, "a.nhtml".toList], .file (Utf8.encode "p;".toList)),
    (["w".toList, "a.html".toList], .file (Utf8.encode "b;".toList))]

def neighbourJobs : List Job :=
  [⟨.ofText "a.nhtml".toList, some (.ofText "a.html".toList)⟩,
    ⟨.ofText "a.html".toList, some (.ofText "a.html".toList)⟩]

lemma planned_neighbours : Planned ["a.nhtml".toList, "a.html".toList] neighbours
    { paths := [.ofText "a.nhtml".toList, .ofText "a.html".toList] } neighbourJobs where
  options := by decide +kernel
  present := by decide +kernel
  plan := ⟨".nhtml".toList, rfl, by decide +kernel⟩

lemma run_neighbours : run ["a.nhtml".toList, "a.html".toList] neighbours = .ok (.failed,
    { files :=
        { working := ["w".toList]
          entries := [(["w".toList, "a.html".toList], .file (Utf8.encode "<p></p>\n".toList)),
            (["w".toList, "a.nhtml".toList], .file (Utf8.encode "p;".toList))] }
      log := ("INFO: a.nhtml -> a.html\n" ++
        "ERROR: a.html: output would overwrite the source file\n" ++
        "ERROR: 1 of 2 file(s) failed\n").toList }) := by
  decide +kernel

theorem source_kept_or_overwritten_neighbours :
    ∃ status c, run ["a.nhtml".toList, "a.html".toList] neighbours = .ok (status, c) ∧
      ∃ bytes, neighbours.read (.ofText "a.html".toList) = .ok bytes ∧
        (c.files.read (.ofText "a.html".toList) = .ok bytes ∨
          ∃ k ∈ neighbourJobs, k.sourceAt ["w".toList] ≠ ["w".toList, "a.html".toList] ∧
            k.targetAt ["w".toList] = some ["w".toList, "a.html".toList] ∧
            ∃ text html, transpile {} text = .ok html ∧
              c.files.read (.ofText "a.html".toList) = .ok (Utf8.encode html)) :=
  ⟨_, _, run_neighbours, source_kept_or_overwritten planned_neighbours run_neighbours
    (j := ⟨.ofText "a.html".toList, some (.ofText "a.html".toList)⟩) (by simp [neighbourJobs])⟩

theorem planned_source_overwritten :
    ¬ ∀ (arguments : List Text) (files : FileTree) (o : Options) (jobs : List Job)
      (status : Status) (c : Console) (j : Job), Planned arguments files o jobs →
        run arguments files = .ok (status, c) → j ∈ jobs →
          c.files.read j.source = files.read j.source := by
  intro h
  have hkept := h _ _ _ _ _ _ ⟨.ofText "a.html".toList, some (.ofText "a.html".toList)⟩
    planned_neighbours run_neighbours (by simp [neighbourJobs])
  revert hkept
  decide +kernel

end Neighbours

/-- When all jobs have worked, a target holds the HTML of its source as it was before the run,
unless a job with this target was disturbed. -/
theorem output_kept_undisturbed (hplan : Planned arguments files o jobs)
    (hout : o.toStdout = false) (hrun : run arguments files = .ok (.done, c)) (hj : j ∈ jobs)
    (hfree : jobs.Pairwise fun earlier later =>
      later.targetAt files.working = j.targetAt files.working →
        ¬ earlier.Disturbs files.working later) :
    ∃ goal text html, j.target = some goal ∧ j.sourceText files = .ok text ∧
      transpile {} text = .ok html ∧ c.files.read goal = .ok (Utf8.encode html) := by
  have hall := hplan.runAll_eq hj hrun
  have hworked := runJobs_of_done (congrArg Prod.fst hall)
  have hfiles := files_runAll (Journal.opened o.verbosity "stderr".toList) jobs { files }
  rw [hall] at hfiles
  obtain ⟨goal, hgoal⟩ := hplan.exists_target hout hj
  obtain ⟨text, html, htext, hhtml, hread⟩ := read_target_of_undisturbed hworked hj hgoal
    (fun k hk => hplan.exists_read_source hk) hfree
  exact ⟨goal, text, html, hgoal, htext, hhtml, hfiles ▸ hread⟩

section Namesakes

def namesakes : FileTree where
  entries := [(["a".toList], .directory), (["b".toList], .directory),
    (["a".toList, "x.nhtml".toList], .file (Utf8.encode "a;".toList)),
    (["b".toList, "x.nhtml".toList], .file (Utf8.encode "b;".toList))]
  working := ["a".toList]

def namesakeJobs (first second : Text) : List Job :=
  [⟨.ofText "x.nhtml".toList, some (.ofText first)⟩,
    ⟨.ofText "/b/x.nhtml".toList, some (.ofText second)⟩]

lemma planned_beside : Planned ["x.nhtml".toList, "/b/x.nhtml".toList] namesakes
    { paths := [.ofText "x.nhtml".toList, .ofText "/b/x.nhtml".toList] }
    (namesakeJobs "x.html".toList "/b/x.html".toList) where
  options := by decide +kernel
  present := by decide +kernel
  plan := ⟨".nhtml".toList, rfl, by decide +kernel⟩

lemma run_beside : run ["x.nhtml".toList, "/b/x.nhtml".toList] namesakes = .ok (.done,
    { files := { namesakes with entries :=
        (["b".toList, "x.html".toList], .file (Utf8.encode "<b></b>\n".toList)) ::
        (["a".toList, "x.html".toList], .file (Utf8.encode "<a></a>\n".toList)) ::
        namesakes.entries }
      log := ("INFO: x.nhtml -> x.html\n" ++ "INFO: /b/x.nhtml -> /b/x.html\n").toList }) := by
  decide +kernel

theorem output_kept_undisturbed_beside :
    ∃ c, run ["x.nhtml".toList, "/b/x.nhtml".toList] namesakes = .ok (.done, c) ∧
      ∃ goal text html, some (Path.ofText "x.html".toList) = some goal ∧
        Job.sourceText ⟨.ofText "x.nhtml".toList, some (.ofText "x.html".toList)⟩ namesakes =
          .ok text ∧
        transpile {} text = .ok html ∧ c.files.read goal = .ok (Utf8.encode html) :=
  ⟨_, run_beside, output_kept_undisturbed planned_beside rfl run_beside
    (j := ⟨.ofText "x.nhtml".toList, some (.ofText "x.html".toList)⟩)
    (by simp [namesakeJobs]) (by decide +kernel)⟩

lemma planned_below : Planned
    ["x.nhtml".toList, "/b/x.nhtml".toList, "-o".toList, "../out".toList] namesakes
    { paths := [.ofText "x.nhtml".toList, .ofText "/b/x.nhtml".toList]
      destination := .below (.ofText "../out".toList) }
    (namesakeJobs "../out/x.html".toList "../out/x.html".toList) where
  options := by decide +kernel
  present := by decide +kernel
  plan := ⟨".nhtml".toList, rfl, by decide +kernel⟩

lemma run_below :
    run ["x.nhtml".toList, "/b/x.nhtml".toList, "-o".toList, "../out".toList] namesakes = .ok (.done,
      { files := { namesakes with entries :=
          (["out".toList, "x.html".toList], .file (Utf8.encode "<b></b>\n".toList)) ::
          (["out".toList], .directory) :: namesakes.entries }
        log := ("INFO: x.nhtml -> ../out/x.html\n" ++
          "INFO: /b/x.nhtml -> ../out/x.html\n").toList }) := by
  decide +kernel

theorem done_run_loses_output :
    ¬ ∀ (arguments : List Text) (files : FileTree) (o : Options) (jobs : List Job) (c : Console)
      (j : Job), Planned arguments files o jobs → o.toStdout = false →
        run arguments files = .ok (.done, c) → j ∈ jobs →
          ∃ goal text html, j.target = some goal ∧ j.sourceText files = .ok text ∧
            transpile {} text = .ok html ∧ c.files.read goal = .ok (Utf8.encode html) := by
  intro h
  obtain ⟨goal, text, html, hgoal, htext, hhtml, hread⟩ := h _ _ _ _ _
    ⟨.ofText "x.nhtml".toList, some (.ofText "../out/x.html".toList)⟩
    planned_below rfl run_below (by simp [namesakeJobs])
  obtain rfl := Option.some.inj hgoal
  obtain rfl : text = "a;".toList := by
    have hsource : Job.sourceText ⟨.ofText "x.nhtml".toList,
      some (.ofText "../out/x.html".toList)⟩ namesakes = .ok "a;".toList := by decide +kernel
    exact Except.ok.inj (htext.symm.trans hsource)
  obtain rfl : html = "<a></a>\n".toList := by
    have hresult : (transpile {} "a;".toList).toOption = some "<a></a>\n".toList := by
      decide +kernel
    rw [hhtml] at hresult
    exact Option.some.inj hresult
  revert hread
  decide +kernel

end Namesakes

end BraceMarkup.Command
