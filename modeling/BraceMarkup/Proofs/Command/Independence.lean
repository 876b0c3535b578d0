import BraceMarkup.Proofs.Command.Saving

namespace BraceMarkup.Command

abbrev Options.journal (o : Options) : Journal :=
  Journal.opened o.verbosity "stderr".toList

variable {new : List Text → Prop} {j : Job} {jobs : List Job} {journal : Journal} {c c' : Console}
  {files t : FileTree} {goal : Path} {html : Text} {bytes : List UInt8} {l : List Text}

namespace Job

def MayLeave (working : List Text) (job : Job) (l : List Text) : Prop :=
  ∃ goal, job.target = some goal ∧ goal.MayLeave working l

lemma run_of_html_error {message : Text} (h : (j.html journal c.files).1 = .error message) :
    (j.run journal c).1 = false ∧ (j.run journal c).2.output = c.output ∧
      (j.run journal c).2.files = c.files := by
  obtain ⟨log, hlog⟩ : ∃ log, j.html journal c.files = (.error message, log) :=
    ⟨_, Prod.ext h rfl⟩
  simp [run, hlog, Console.note]

lemma run_of_no_target (h : (j.html journal c.files).1 = .ok html) (hgoal : j.target = none) :
    (j.run journal c).1 = true ∧ (j.run journal c).2.output = c.output ++ html ∧
      (j.run journal c).2.files = c.files := by
  obtain ⟨log, hlog⟩ : ∃ log, j.html journal c.files = (.ok html, log) := ⟨_, Prod.ext h rfl⟩
  simp [run, hlog, deliver, hgoal]

lemma run_of_target (h : (j.html journal c.files).1 = .ok html) (hgoal : j.target = some goal) :
    ((j.run journal c).1 = true ↔ ∃ t, save goal html c.files = .ok () t) ∧
      (j.run journal c).2.output = c.output ∧
      (j.run journal c).2.files = FileTree.left (save goal html c.files) := by
  obtain ⟨log, hlog⟩ : ∃ log, j.html journal c.files = (.ok html, log) := ⟨_, Prod.ext h rfl⟩
  cases hsave : save goal html c.files <;>
    simp [run, hlog, deliver, hgoal, hsave, Console.note, FileTree.left]

lemma run_eq_false (h : (j.run journal c).1 = false) :
    (j.run journal c).2.output = c.output ∧
      ((j.run journal c).2.files = c.files ∨
        ∃ goal html fault, j.target = some goal ∧
          save goal html c.files = .error fault (j.run journal c).2.files) := by
  cases hhtml : (j.html journal c.files).1 with
  | error message =>
    obtain ⟨-, houtput, hfiles⟩ := run_of_html_error hhtml
    exact ⟨houtput, .inl hfiles⟩
  | ok html =>
    cases hgoal : j.target with
    | none => simp [(run_of_no_target hhtml hgoal).1] at h
    | some goal =>
      obtain ⟨hworked, houtput, hfiles⟩ := run_of_target hhtml hgoal
      cases hsave : save goal html c.files with
      | ok _ u => simp [hworked.mpr ⟨u, hsave⟩] at h
      | error fault u =>
        rw [hsave] at hfiles
        exact ⟨houtput, .inr ⟨goal, html, fault, rfl, hfiles ▸ hsave⟩⟩

end Job

structure Console.GrowsAt (new : List Text → Prop) (c c' : Console) : Prop where
  output : c'.output = c.output
  files : FileTree.GrowsAt new c.files c'.files

namespace Console.GrowsAt

variable {new' : List Text → Prop} {c'' : Console}

lemma refl (new : List Text → Prop) (c : Console) : GrowsAt new c c :=
  ⟨rfl, .refl new c.files⟩

lemma trans (h : GrowsAt new c c') (h' : GrowsAt new c' c'') : GrowsAt new c c'' :=
  ⟨h'.output.trans h.output, h.files.trans h'.files⟩

lemma mono (h : GrowsAt new c c') (hnew : ∀ l, new l → new' l) : GrowsAt new' c c' :=
  ⟨h.output, h.files.mono hnew⟩

end Console.GrowsAt

namespace Job

lemma growsAt_of_run_eq_false (hrooted : c.files.Rooted) (h : (j.run journal c).1 = false) :
    c.GrowsAt (j.MayLeave c.files.working) (j.run journal c).2 := by
  obtain ⟨houtput, hsame | ⟨goal, html, fault, hgoal, hsave⟩⟩ := run_eq_false h
  · refine ⟨houtput, ?_⟩
    rw [hsame]
    exact .refl _ _
  · refine ⟨houtput, (growsAt_of_save_error hrooted hsave).mono ?_⟩
    exact fun l hl => ⟨goal, hgoal, hl⟩

lemma run_of_growsAt (hgrows : c.GrowsAt new c')
    (hread : c.files.read j.source = .ok bytes) (h : (j.run journal c').1 = true) :
    (j.run journal c).1 = true ∧ (j.run journal c).2.GrowsAt new (j.run journal c').2 := by
  -- The source is the same file in both, so they have the same HTML to deliver.
  have hread' : c'.files.read j.source = .ok bytes :=
    hgrows.files.updates.read hread fun _ => False.elim
  have hsame : (j.html journal c'.files).1 = (j.html journal c.files).1 := by
    simp only [Job.html, hgrows.files.working, sourceText_of_read hread' hread]
  cases hhtml : (j.html journal c.files).1 with
  | error message => simp [(run_of_html_error (hsame.trans hhtml)).1] at h
  | ok html =>
    cases hgoal : j.target with
    | none =>
      obtain ⟨-, houtput', hfiles'⟩ := run_of_no_target (hsame.trans hhtml) hgoal
      obtain ⟨hworked, houtput, hfiles⟩ := run_of_no_target hhtml hgoal
      refine ⟨hworked, ?_, ?_⟩
      · rw [houtput, houtput', hgrows.output]
      · rw [hfiles, hfiles']
        exact hgrows.files
    | some goal =>
      obtain ⟨hworked', houtput', hfiles'⟩ := run_of_target (hsame.trans hhtml) hgoal
      obtain ⟨hworked, houtput, hfiles⟩ := run_of_target hhtml hgoal
      obtain ⟨u', hsave'⟩ := hworked'.mp h
      obtain ⟨u, hsave, hgrown⟩ := save_of_growsAt hgrows.files hsave'
      refine ⟨hworked.mpr ⟨u, hsave⟩, ?_, ?_⟩
      · rw [houtput, houtput', hgrows.output]
      · rw [hfiles, hfiles', hsave, hsave']
        exact hgrown

lemma rooted_run (hrooted : c.files.Rooted) (j : Job) (journal : Journal) :
    (j.run journal c).2.files.Rooted := by
  cases hhtml : (j.html journal c.files).1 with
  | error message => rwa [(run_of_html_error hhtml).2.2]
  | ok html =>
    cases hgoal : j.target with
    | none => rwa [(run_of_no_target hhtml hgoal).2.2]
    | some goal =>
      rw [(run_of_target hhtml hgoal).2.2]
      exact rooted_save hrooted goal html

end Job

section Runs

/-- The jobs that end in the given way when all are done in order. -/
def jobsEnding (worked : Bool) (journal : Journal) : List Job → Console → List Job
  | [], _ => []
  | job :: jobs, c =>
    let (ended, c) := job.run journal c
    if ended = worked then job :: jobsEnding worked journal jobs c
    else jobsEnding worked journal jobs c

variable {worked : Bool}

lemma jobsEnding_cons_of_eq (h : (j.run journal c).1 = worked) (jobs : List Job) :
    jobsEnding worked journal (j :: jobs) c =
      j :: jobsEnding worked journal jobs (j.run journal c).2 := by
  simp only [jobsEnding, h, if_true]

lemma jobsEnding_cons_of_ne (h : (j.run journal c).1 ≠ worked) (jobs : List Job) :
    jobsEnding worked journal (j :: jobs) c = jobsEnding worked journal jobs (j.run journal c).2 := by
  simp only [jobsEnding, if_neg h]

lemma jobsEnding_subset (worked : Bool) (journal : Journal) (jobs : List Job) (c : Console) :
    jobsEnding worked journal jobs c ⊆ jobs := by
  induction jobs generalizing c with
  | nil => exact List.Subset.refl _
  | cons job jobs ih =>
    by_cases h : (job.run journal c).1 = worked
    · rw [jobsEnding_cons_of_eq h]
      exact List.cons_subset_cons job (ih _)
    · rw [jobsEnding_cons_of_ne h]
      exact List.subset_cons_of_subset job (ih _)

lemma fst_runJobs (journal : Journal) (jobs : List Job) (c : Console) :
    (runJobs journal jobs c).1 = (jobsEnding false journal jobs c).length := by
  induction jobs generalizing c with
  | nil => rfl
  | cons job jobs ih =>
    cases h : (job.run journal c).1 with
    | false =>
      rw [jobsEnding_cons_of_eq h, List.length_cons, ← ih]
      simp [runJobs, h]
    | true =>
      rw [jobsEnding_cons_of_ne (by simp [h]), ← ih]
      simp [runJobs, h]

lemma updates_jobsEnding (journal : Journal) (jobs : List Job) (c : Console) :
    c.files.Updates
      (fun l b => ∃ k ∈ jobsEnding true journal jobs c, k.Writes c.files.working l b)
      (runJobs journal jobs c).2.files := by
  induction jobs generalizing c with
  | nil => exact .refl _ _
  | cons job jobs ih =>
    have hfirst := job.updates_run journal c
    have hrest := ih (job.run journal c).2
    rw [hfirst.working] at hrest
    cases h : (job.run journal c).1 with
    | false =>
      rw [jobsEnding_cons_of_ne (by simp [h])]
      refine FileTree.Updates.trans ?_ hrest
      obtain ⟨-, hsame | ⟨goal, html, fault, -, hsave⟩⟩ := Job.run_eq_false h
      · rw [hsame]
        exact .refl _ _
      · obtain ⟨_, _, herror, hup⟩ | ⟨_, hok, -⟩ := Job.save_cases goal html c.files
        · obtain ⟨-, rfl⟩ := EStateM.Result.error.inj (hsave.symm.trans herror)
          exact hup.mono fun _ _ => False.elim
        · rw [hsave] at hok
          cases hok
    | true =>
      rw [jobsEnding_cons_of_eq h]
      refine (hfirst.mono ?_).trans (hrest.mono ?_)
      · exact fun l b hw => ⟨job, List.mem_cons_self, hw⟩
      · rintro l b ⟨k, hk, hw⟩
        exact ⟨k, List.mem_cons_of_mem job hk, hw⟩

lemma runJobs_jobsEnding (hrooted : c'.files.Rooted) (hgrows : c.GrowsAt new c')
    (hsources : ∀ k ∈ jobs, ∃ bytes, c.files.read k.source = .ok bytes)
    (hnew : ∀ k ∈ jobsEnding false journal jobs c', ∀ l, k.MayLeave c'.files.working l → new l) :
    (runJobs journal (jobsEnding true journal jobs c') c).1 = 0 ∧
      (runJobs journal (jobsEnding true journal jobs c') c).2.GrowsAt new
        (runJobs journal jobs c').2 := by
  -- The run of all jobs goes on at each of them, the other one only when a job works.
  induction jobs generalizing c c' with
  | nil => exact ⟨rfl, hgrows⟩
  | cons job jobs ih =>
    have hrooted' := Job.rooted_run hrooted job journal
    have hworking := (job.updates_run journal c').working
    cases h : (job.run journal c').1 with
    | false =>
      rw [jobsEnding_cons_of_eq h] at hnew
      rw [jobsEnding_cons_of_ne (by simp [h])]
      refine ih hrooted' (hgrows.trans ?_) (fun k hk => hsources k (List.mem_cons_of_mem job hk))
        fun k hk => hworking ▸ hnew k (List.mem_cons_of_mem job hk)
      exact (Job.growsAt_of_run_eq_false hrooted h).mono (hnew job List.mem_cons_self)
    | true =>
      rw [jobsEnding_cons_of_ne (by simp [h])] at hnew
      rw [jobsEnding_cons_of_eq h]
      obtain ⟨bytes, hread⟩ := hsources job List.mem_cons_self
      obtain ⟨hworked, hgrows'⟩ := Job.run_of_growsAt hgrows hread h
      have hsources' : ∀ k ∈ jobs, ∃ bytes,
          (job.run journal c).2.files.read k.source = .ok bytes := by
        intro k hk
        obtain ⟨bytes, hbytes⟩ := hsources k (List.mem_cons_of_mem job hk)
        obtain ⟨bytes', hbytes', -⟩ := (job.updates_run journal c).exists_read hbytes
        exact ⟨bytes', hbytes'⟩
      obtain ⟨hcount, hend⟩ := ih hrooted' hgrows' hsources' (hworking ▸ hnew)
      exact ⟨by simpa [runJobs, hworked] using hcount, hend⟩

end Runs

section Status

lemma output_runAll (journal : Journal) (jobs : List Job) (c : Console) :
    (runAll journal jobs c).2.output = (runJobs journal jobs c).2.output := by
  unfold runAll
  split
  next hrun =>
    rw [hrun]
    rfl
  next hrun =>
    rw [hrun]
    rfl

lemma code_runAll (journal : Journal) (jobs : List Job) (c : Console) :
    (runAll journal jobs c).1.code = if (runJobs journal jobs c).1 = 0 then 0 else 1 := by
  unfold runAll
  split
  next hrun => simp [hrun, Status.code]
  next hfailed hrun =>
    rw [hrun, if_neg hfailed]
    rfl

lemma askable_of_has {p : Path} (h : t.has p) : t.askable p = .ok () := by
  unfold FileTree.has FileTree.entry? at h
  unfold FileTree.askable
  cases hlocate : t.locate p with
  | error trouble => simp [hlocate] at h
  | ok l => rfl

lemma forM_eq_ok {ε α : Type} {f : α → Except ε Unit} {xs : List α} (h : ∀ x ∈ xs, f x = .ok ()) :
    xs.forM f = .ok () := by
  induction xs with
  | nil => rfl
  | cons x xs ih =>
    change (f x >>= fun _ => xs.forM f) = .ok ()
    rw [h x List.mem_cons_self]
    exact ih fun y hy => h y (List.mem_cons_of_mem x hy)

lemma foldl_note (journal : Journal) (level : Level) (message : Path → Text) (paths : List Path)
    (c : Console) :
    paths.foldl (fun c p => c.note journal level (message p)) c =
      { c with log := c.log ++ paths.flatMap fun p => journal.written level (message p) } := by
  induction paths generalizing c with
  | nil => simp
  | cons p paths ih =>
    rw [List.foldl_cons, ih]
    simp [Console.note]

lemma runOptions_of_missing {o : Options} (hask : ∀ p ∈ o.paths, c.files.askable p = .ok ())
    (hmissing : ∃ p ∈ o.paths, c.files.has p = false) :
    runOptions o c = .ok (.misused, { c with
      log := c.log ++ (o.paths.filter fun p => !c.files.has p).flatMap fun p =>
        (Journal.opened o.verbosity "stderr".toList).written .error
          ("no such file or directory: ".toList ++ p.text) }) := by
  obtain ⟨p, hp, hhas⟩ := hmissing
  have hfound : o.paths.filter (fun p => !c.files.has p) ≠ [] :=
    List.ne_nil_of_mem (List.mem_filter.mpr ⟨hp, by simp [hhas]⟩)
  have hasked : o.paths.forM (askable c.files) = .ok () :=
    forM_eq_ok fun p hp => by simp [askable, hask p hp, Except.mapError]
  rw [← foldl_note]
  unfold runOptions
  rw [hasked]
  simp [Bind.bind, Except.bind, hfound, Pure.pure, Except.pure]

end Status

variable {arguments : List Text} {o : Options}

namespace Planned

lemma exists_withSuffix (h : Planned arguments files o jobs) (hj : j ∈ jobs)
    (hgoal : j.target = some goal) : ∃ p : Path, goal = p.withSuffix ".html".toList := by
  obtain ⟨extension, -, hplan⟩ := h.plan
  obtain ⟨-, -, -, -, -, root, htarget⟩ := exists_of_mem_plan hplan hj
  rw [hgoal] at htarget
  unfold target at htarget
  split_ifs at htarget
  · cases htarget
  · split at htarget
    next => exact ⟨_, (Option.some.inj (Except.ok.inj htarget)).symm⟩
    next => exact ⟨_, (Option.some.inj (Except.ok.inj htarget)).symm⟩
    next => cases htarget

lemma exists_run (h : Planned arguments files o jobs)
    (hnull : ∀ k ∈ jobs, k.hasNullCharacter = false) :
    ∃ status c, run arguments files = .ok (status, c) ∧
      c.files = (runJobs o.journal jobs { files }).2.files ∧
      c.output = (runJobs o.journal jobs { files }).2.output ∧
      status.code = if (runJobs o.journal jobs { files }).1 = 0 then 0 else 1 := by
  obtain ⟨extension, hext, hplan⟩ := h.plan
  have hasked : o.paths.forM (askable files) = .ok () :=
    forM_eq_ok fun p hp => by simp [askable, askable_of_has (h.present p hp), Except.mapError]
  have hmissing : o.paths.filter (fun p => !files.has p) = [] := by
    simpa [List.filter_eq_nil_iff] using h.present
  have hclean : jobs.any Job.hasNullCharacter = false := by simpa using hnull
  unfold run
  rw [h.options]
  dsimp only
  unfold runOptions
  by_cases hnone : jobs = []
  · simp [hasked, hmissing, hext, hplan, hnone, Bind.bind, Except.bind, Pure.pure, Except.pure,
      runJobs, Status.code, Console.note]
  · refine ⟨_, _, ?_, files_runAll _ jobs _, output_runAll _ jobs _, code_runAll _ jobs _⟩
    simp only [hasked, hmissing, hext, hplan, hnone, hclean, ne_eq, not_true_eq_false, if_false,
      Bool.false_eq_true, Bind.bind, Except.bind, Pure.pure, Except.pure]

end Planned

lemma find?_file_of_no_target {working : List Text}
    (hup : files.Updates (fun l b => ∃ k ∈ jobs, k.Writes working l b) t)
    (hl : ∀ k ∈ jobs, k.targetAt working ≠ some l) (bytes : List UInt8) :
    t.find? l = some (.file bytes) ↔ files.find? l = some (.file bytes) := by
  have hold {bytes : List UInt8} (h : t.find? l = some (.file bytes)) :
      files.find? l = some (.file bytes) := by
    obtain hold | ⟨k, hk, hw⟩ := hup.held h
    · exact hold
    · exact absurd hw.1 (hl k hk)
  refine ⟨hold, fun h => ?_⟩
  obtain ⟨bytes', h'⟩ := hup.file h
  rw [h', ← hold h', h]

lemma getLast?_of_changed
    (hup : files.Updates (fun l b => ∃ k ∈ jobs, k.Writes files.working l b) t)
    (hjobs : ∀ k ∈ jobs, ∀ goal, k.target = some goal →
      ∃ p : Path, goal = p.withSuffix ".html".toList)
    (h : t.find? l = some (.file bytes)) (hchanged : files.find? l ≠ some (.file bytes)) :
    ∃ name, l.getLast? = some (name ++ ".html".toList) := by
  have hplace : ¬ l <+: files.working := by
    rw [← hup.working]
    exact FileTree.not_prefix_of_find? (by simp [h])
  obtain hold | ⟨k, hk, hw⟩ := hup.held h
  · exact absurd hold hchanged
  · obtain ⟨goal, hgoal, rfl⟩ := Option.map_eq_some_iff.mp hw.1
    obtain ⟨p, rfl⟩ := hjobs k hk goal hgoal
    exact Path.getLast?_direct_withSuffix (by decide) hplace

/-- A job that fails prints nothing and changes nothing, but that it may leave directories which its
target passes before a name that leads back or is too long. Up to these, a run prints and leaves the
same as one with only those jobs that work; their targets are the only files that change, and the
status says whether a job has failed. If an argument is missing, nothing is read or written. -/
theorem failures_isolated (arguments : List Text) (files : FileTree) (o : Options) :
    (∀ (j : Job) (journal : Journal) (c : Console), c.files.Rooted →
      (j.run journal c).1 = false →
        c.GrowsAt (j.MayLeave c.files.working) (j.run journal c).2) ∧
    (∀ jobs, Planned arguments files o jobs → files.Rooted →
      (∀ j ∈ jobs, j.hasNullCharacter = false) →
      ∃ status c, run arguments files = .ok (status, c) ∧
        status.code = (if jobsEnding false o.journal jobs { files } = [] then 0 else 1) ∧
        (∃ c₀, runJobs o.journal (jobsEnding true o.journal jobs { files }) { files } = (0, c₀) ∧
          c₀.GrowsAt (fun l => ∃ j ∈ jobsEnding false o.journal jobs { files },
            j.MayLeave files.working l) c) ∧
        (∀ l, (∀ j ∈ jobsEnding true o.journal jobs { files },
            j.targetAt files.working ≠ some l) →
          ∀ bytes, c.files.find? l = some (.file bytes) ↔ files.find? l = some (.file bytes)) ∧
        ∀ l bytes, c.files.find? l = some (.file bytes) → files.find? l ≠ some (.file bytes) →
          ∃ name, l.getLast? = some (name ++ ".html".toList)) ∧
    (Options.ofArguments arguments = .ok o → (∀ p ∈ o.paths, files.askable p = .ok ()) →
      (∃ p ∈ o.paths, files.has p = false) →
      ∃ log, ∀ files', files.SameShape files' →
        run arguments files' = .ok (.misused, { files := files', log })) := by
  refine ⟨fun j journal c hrooted h => Job.growsAt_of_run_eq_false hrooted h, ?_, ?_⟩
  · intro jobs hplan hrooted hnull
    obtain ⟨status, c, hrun, hfiles, houtput, hcode⟩ := hplan.exists_run hnull
    have hupdates := updates_jobsEnding o.journal jobs { files }
    rw [← hfiles] at hupdates
    obtain ⟨hcount, hgrows⟩ := runJobs_jobsEnding hrooted
      (.refl (fun l => ∃ j ∈ jobsEnding false o.journal jobs { files },
        j.MayLeave files.working l) { files })
      (fun k hk => hplan.exists_read_source hk) fun k hk l hl => ⟨k, hk, hl⟩
    refine ⟨status, c, hrun, ?_, ⟨_, Prod.ext hcount rfl, ?_, ?_⟩, ?_, ?_⟩
    · simp only [hcode, fst_runJobs, List.length_eq_zero_iff]
    · rw [houtput, hgrows.output]
    · rw [hfiles]
      exact hgrows.files
    · exact fun l hl bytes => find?_file_of_no_target hupdates hl bytes
    · exact fun l bytes => getLast?_of_changed hupdates fun k hk goal =>
        hplan.exists_withSuffix (jobsEnding_subset _ _ _ _ hk)
  · intro hoptions hask hmissing
    refine ⟨(o.paths.filter fun p => !files.has p).flatMap fun p =>
      o.journal.written .error ("no such file or directory: ".toList ++ p.text),
      fun files' hshape => ?_⟩
    simp only [hshape.askable, hshape.has] at hask hmissing ⊢
    simp only [run, hoptions, runOptions_of_missing (c := { files := files' }) hask hmissing,
      List.nil_append]

section Blocked

def blocked : FileTree where
  entries := [(["a.nhtml".toList], .file (Utf8.encode "p;".toList)),
    (["b.nhtml".toList], .file (Utf8.encode "b;".toList)),
    (["d".toList], .directory), (["d".toList, "a.html".toList], .directory)]

def detouring (source goal : Text) : Job :=
  ⟨.ofText source, some (.ofText ("new/../d/".toList ++ goal))⟩

def blockedJobs : List Job :=
  [detouring "a.nhtml".toList "a.html".toList, detouring "b.nhtml".toList "b.html".toList]

def blockedOptions : Options where
  paths := [.ofText "a.nhtml".toList, .ofText "b.nhtml".toList]
  destination := .below (.ofText "new/../d".toList)

lemma planned_blocked : Planned
    ["a.nhtml".toList, "b.nhtml".toList, "-o".toList, "new/../d".toList] blocked blockedOptions
    blockedJobs where
  options := by decide +kernel
  present := by decide +kernel
  plan := ⟨".nhtml".toList, rfl, by decide +kernel⟩

lemma rooted_blocked : blocked.Rooted :=
  FileTree.rooted_of_entries (by decide +kernel)

lemma hasNullCharacter_blockedJobs : ∀ j ∈ blockedJobs, j.hasNullCharacter = false := by
  decide +kernel

theorem failures_isolated_blocked :
    Console.GrowsAt ((detouring "a.nhtml".toList "a.html".toList).MayLeave []) { files := blocked }
      ((detouring "a.nhtml".toList "a.html".toList).run blockedOptions.journal
        { files := blocked }).2 ∧
    (∃ status c, run ["a.nhtml".toList, "b.nhtml".toList, "-o".toList, "new/../d".toList] blocked =
        .ok (status, c) ∧ status.code = 1 ∧
      ∃ c₀, runJobs blockedOptions.journal [detouring "b.nhtml".toList "b.html".toList]
          { files := blocked } = (0, c₀) ∧
        c₀.GrowsAt ((detouring "a.nhtml".toList "a.html".toList).MayLeave []) c) ∧
    ∃ log, run ["x.nhtml".toList] blocked = .ok (.misused, { files := blocked, log }) := by
  have hworked : jobsEnding true blockedOptions.journal blockedJobs { files := blocked } =
      [detouring "b.nhtml".toList "b.html".toList] := by decide +kernel
  have hfailed : jobsEnding false blockedOptions.journal blockedJobs { files := blocked } =
      [detouring "a.nhtml".toList "a.html".toList] := by decide +kernel
  obtain ⟨hjob, hrun, -⟩ := failures_isolated
    ["a.nhtml".toList, "b.nhtml".toList, "-o".toList, "new/../d".toList] blocked blockedOptions
  obtain ⟨-, -, hmissing⟩ := failures_isolated ["x.nhtml".toList] blocked
    { paths := [.ofText "x.nhtml".toList] }
  refine ⟨hjob _ _ { files := blocked } rooted_blocked (by decide +kernel), ?_, ?_⟩
  · obtain ⟨status, c, hok, hcode, ⟨c₀, hc₀, hgrows⟩, -⟩ :=
      hrun blockedJobs planned_blocked rooted_blocked hasNullCharacter_blockedJobs
    rw [hworked] at hc₀
    rw [hfailed] at hcode hgrows
    exact ⟨status, c, hok, hcode, c₀, hc₀, hgrows.mono (by simp [blocked])⟩
  · obtain ⟨log, hlog⟩ := hmissing (by decide +kernel) (by decide +kernel) (by decide +kernel)
    exact ⟨log, hlog blocked ⟨rfl, fun _ => rfl⟩⟩

def longName : Text :=
  List.replicate 256 'a'

def longJob : Job :=
  ⟨.ofText "a.nhtml".toList, some (.ofText ("new/".toList ++ longName ++ "/a.html".toList))⟩

lemma planned_long : Planned ["a.nhtml".toList, "-o".toList, "new/".toList ++ longName] blocked
    { paths := [.ofText "a.nhtml".toList]
      destination := .below (.ofText ("new/".toList ++ longName)) } [longJob] where
  options := by decide +kernel
  present := by decide +kernel
  plan := ⟨".nhtml".toList, rfl, by decide +kernel⟩

lemma planned_null : Planned ["a.nhtml".toList, "-o".toList, ['\x00']] blocked
    { paths := [.ofText "a.nhtml".toList], destination := .below (.ofText ['\x00']) }
    [⟨.ofText "a.nhtml".toList, some (.ofText ('\x00' :: "/a.html".toList))⟩] where
  options := by decide +kernel
  present := by decide +kernel
  plan := ⟨".nhtml".toList, rfl, by decide +kernel⟩

lemma run_ne_ok {r : Status × Console} (h : (run arguments files).toOption = none) :
    run arguments files ≠ .ok r := by
  intro hrun
  rw [hrun] at h
  cases h

def LeavesNothing (allowed : Path → Prop) : Prop :=
  ∀ (arguments : List Text) (files : FileTree) (o : Options) (jobs : List Job) (j : Job)
    (goal : Path), Planned arguments files o jobs → files.Rooted →
      (∀ k ∈ jobs, k.hasNullCharacter = false) → j ∈ jobs → j.target = some goal → allowed goal →
        (j.run o.journal { files }).1 = false →
          ∀ l, (j.run o.journal { files }).2.files.find? l = files.find? l

theorem failures_not_isolated :
    ¬ LeavesNothing (fun goal => ∀ part ∈ goal.parts,
      Path.byteCount part ≤ FileTree.nameLimit) ∧
    ¬ LeavesNothing (fun goal => Path.up ∉ goal.parts) ∧
    (¬ ∀ (arguments : List Text) (files : FileTree) (o : Options) (jobs : List Job),
      Planned arguments files o jobs → files.Rooted →
        ∃ status c, run arguments files = .ok (status, c)) ∧
    ¬ ∀ (arguments : List Text) (files : FileTree) (o : Options),
      Options.ofArguments arguments = .ok o → (∃ p ∈ o.paths, files.has p = false) →
        ∃ c, run arguments files = .ok (.misused, c) := by
  refine ⟨fun h => ?_, fun h => ?_, fun h => ?_, fun h => ?_⟩
  · have hsame := h _ _ _ _ (detouring "a.nhtml".toList "a.html".toList) _ planned_blocked
      rooted_blocked hasNullCharacter_blockedJobs (by simp [blockedJobs]) rfl (by decide +kernel)
      (by decide +kernel) ["new".toList]
    revert hsame
    decide +kernel
  · have hsame := h _ _ _ _ longJob _ planned_long rooted_blocked (by decide +kernel) (by simp) rfl
      (by decide +kernel) (by decide +kernel) ["new".toList]
    revert hsame
    decide +kernel
  · obtain ⟨status, c, hrun⟩ := h _ _ _ _ planned_null rooted_blocked
    exact run_ne_ok (by decide +kernel) hrun
  · obtain ⟨c, hrun⟩ := h [longName] {} { paths := [.ofText longName] } (by decide +kernel)
      (by decide +kernel)
    exact run_ne_ok (by decide +kernel) hrun

end Blocked

end BraceMarkup.Command
