import Myndaix.Reconcile.Gate

/-! What holds where a poll writes its receipt, whatever the version that it finds, whatever a run
before it has left behind, and whatever happens between two of its commands.
-/

namespace Reconcile

open Interaction
open Interaction.Program hiding ask

variable {Sha Plist : Type} [DecidableEq Sha] [DecidableEq Plist]

-- The converge

/-- What installing the jobs of a version leaves of the plists that were there. -/
def settled (managed : Option (List Label)) (jobs : List (Job Plist))
    (installed : Label → Option Plist)
    : Label → Option Plist :=
  pruned (managed.getD []) (jobs.map Job.label) (overlay jobs installed)

/-- What was installed on the way to the jobs that have passed: where a version had failed before,
its jobs were installed first.
-/
def Installs (surroundings : Surroundings Sha Plist) (start : World Sha Plist)
    (jobs : List (Job Plist)) (installed : Label → Option Plist)
    : Option Sha → Prop
  | none => installed = settled start.managedLabels jobs start.installed
  | some bad =>
      ∃ badJobs,
        Selects (surroundings.tree bad).descriptors badJobs
        ∧ installed
          = settled start.managedLabels jobs (settled start.managedLabels badJobs start.installed)

/-- What is known of the jobs that have passed, in a poll that began in this world. -/
structure Chosen (surroundings : Surroundings Sha Plist) (start : World Sha Plist)
    (gated : Gated Sha) (jobs : List (Job Plist)) (installed : Label → Option Plist)
    : Prop where
  selects : Selects (surroundings.tree gated.sha).descriptors jobs
  labels : gated.roleLabels = jobs.map Job.label
  installs : Installs surroundings start jobs installed gated.bad
  reverts : ∀ bad, gated.bad = some bad → start.runningSha = some gated.sha

/-- The world in which they have passed. -/
structure Stands (surroundings : Surroundings Sha Plist) (managed : Option (List Label))
    (gated : Gated Sha) (installed : Label → Option Plist) (world : World Sha Plist)
    : Prop where
  passes : Passes surroundings gated.sha installed managed gated.roleLabels world
  installed : world.installed = installed
  venv : world.venv = true
  failed : ∀ bad, gated.bad = some bad → bad ∈ world.failedGates

section Converge

variable {surroundings : Surroundings Sha Plist} {isWord : Char → Bool} {env : Env}
  {holds : World Sha Plist → Prop} {world later start : World Sha Plist}
  {installed : Label → Option Plist} {sha : Sha} {managed : Option (List Label)}
  {roleLabels : List Label} {gated : Gated Sha} {jobs : List (Job Plist)}

theorem migrated_lasts (sha : Sha)
    : Steady (surroundings.audited isWord env) (fun query => query.kind = .read)
        (fun world =>
          ∃ name, (surroundings.tree sha).migrationHead = some name ∧ name ∈ world.relations) := by
  refine steady_of (fun reads => (tidy_of_reads reads).1) (fun moved => ?_) fun _ frame => ?_
  · rintro ⟨name, object, there⟩
    exact ⟨name, object, moved.relations there⟩
  · rintro ⟨name, object, there⟩
    exact ⟨name, object, frame.relations there⟩

theorem passes_lasts (sha : Sha) (installed : Label → Option Plist)
    (managed : Option (List Label)) (roleLabels : List Label)
    : Steady (surroundings.audited isWord env) (fun query => query.kind = .read)
        (Passes surroundings sha installed managed roleLabels) := by
  have serve
      : Steady (surroundings.audited isWord env) (fun query => query.kind = .read)
          (Restarted sha none) :=
    (restarted_steady sha none).fewer fun reads => (tidy_of_reads reads).1
  refine (((serve.and (migrated_lasts sha)).and (ticks_lasting installed roleLabels)).and
    (vacated_lasts (surroundings.tree sha).descriptors (managed.getD []))).congr fun world => ?_
  constructor
  · rintro ⟨⟨⟨serve, migrated⟩, ticks⟩, vacated⟩
    exact ⟨serve, migrated, ticks, vacated⟩
  · exact fun passes => ⟨⟨⟨passes.serve, passes.migrated⟩, passes.ticks⟩, passes.vacated⟩

omit [DecidableEq Sha] [DecidableEq Plist] in
/-- Writing a record does not change what has passed. -/
theorem Passes.framed {kind : Query.Kind} (quiet : kind = .read ∨ kind = .record)
    (frame : Frame kind world later)
    (passes : Passes surroundings sha installed managed roleLabels world)
    : Passes surroundings sha installed managed roleLabels later := by
  have service : later.service = world.service := by
    rcases quiet with rfl | rfl <;> exact frame.service nofun nofun
  have head : later.head = world.head := by
    rcases quiet with rfl | rfl <;> exact frame.head nofun
  have plists : later.installed = world.installed := by
    rcases quiet with rfl | rfl <;> exact frame.installed nofun
  constructor
  · exact passes.serve.later head frame.serve
  · obtain ⟨name, object, there⟩ := passes.migrated
    exact ⟨name, object, frame.relations there⟩
  · intro label among tick
    obtain ⟨plist, stands, loaded⟩ := passes.ticks label among tick
    exact ⟨plist, stands, service ▸ loaded⟩
  · intro label among other unnamed
    rw [plists, service]
    exact passes.vacated label among other unnamed

theorem stands_lasts (managed : Option (List Label)) (gated : Gated Sha)
    (installed : Label → Option Plist)
    : Steady (surroundings.audited isWord env) (fun query => query.kind = .read)
        (Stands surroundings managed gated installed) := by
  have permitted {world : World Sha Plist} {query : Query Sha Plist} (reads : query.kind = .read)
      : (surroundings.audited isWord env).permits world query :=
    permitted_calm (tidy_of_reads reads).1 world
  have failed
      : Steady (surroundings.audited isWord env) (fun query => query.kind = .read)
          (fun world => ∀ bad, gated.bad = some bad → bad ∈ world.failedGates) :=
    .all permitted fun bad => .all permitted fun _ =>
      (failed_steady bad).fewer fun reads => (tidy_of_reads reads).1
  have plists
      : Steady (surroundings.audited isWord env) (fun query => query.kind = .read)
          (fun world => world.installed = installed) :=
    (installed_steady installed).fewer tidy_of_reads
  refine ((((passes_lasts gated.sha installed managed gated.roleLabels).and plists).and
    (venv_steady.fewer fun reads => (tidy_of_reads reads).1)).and failed).congr fun world => ?_
  constructor
  · rintro ⟨⟨⟨passes, stands⟩, venv⟩, failed⟩
    exact ⟨passes, stands, venv, failed⟩
  · exact fun stands => ⟨⟨⟨stands.passes, stands.installed⟩, stands.venv⟩, stands.failed⟩

omit [DecidableEq Sha] [DecidableEq Plist] in
theorem Stands.framed {kind : Query.Kind} (quiet : kind = .read ∨ kind = .record)
    (frame : Frame kind world later) (stands : Stands surroundings managed gated installed world)
    : Stands surroundings managed gated installed later := by
  refine ⟨stands.passes.framed quiet frame, ?_, frame.venv stands.venv, ?_⟩
  · rcases quiet with rfl | rfl <;> exact (frame.installed nofun).trans stands.installed
  · exact fun bad same => frame.failedGates (stands.failed bad same)

/-- What the records say. -/
structure Filed (running quarantined : Option Sha) (managed : Option (List Label))
    (world : World Sha Plist)
    : Prop where
  runningSha : world.runningSha = running
  quarantinedSha : world.quarantinedSha = quarantined
  managedLabels : world.managedLabels = managed

theorem filed_steady (running quarantined : Option Sha) (managed : Option (List Label))
    : Steady (surroundings.audited isWord env) Query.Calm (Filed running quarantined managed) := by
  refine steady_of id (fun moved filed => ?_) fun calm frame filed => ?_
  · exact ⟨moved.runningSha.trans filed.runningSha, moved.quarantinedSha.trans filed.quarantinedSha,
      moved.managedLabels.trans filed.managedLabels⟩
  · exact ⟨(frame.runningSha calm.2).trans filed.runningSha,
      (frame.quarantinedSha calm.2).trans filed.quarantinedSha,
      (frame.managedLabels calm.2).trans filed.managedLabels⟩

theorem recoverable_ensures
    (steady : Steady (surroundings.audited isWord env) (fun query => query.kind = .read) holds)
    (prevGood : Option Sha) (start : holds world)
    : (recoverable prevGood).Ensures (surroundings.audited isWord env)
        (fun found later => holds later ∧ found = prevGood.filter surroundings.commits) world := by
  cases prevGood with
  | none => exact steady.ends start fun _ here => ⟨here, rfl⟩
  | some prevGood =>
      refine reads_ensures steady rfl start (fun _ _ => trivial) ?_
      intro there before here (told : there = surroundings.commits prevGood)
      have found : (some prevGood).filter surroundings.commits
        = if there then some prevGood else none := by
        rw [told, Option.filter_some]
      cases there with
      | true => exact steady.ends here fun later here => ⟨here, found.symm⟩
      | false => exact steady.ends here fun later here => ⟨here, found.symm⟩

/-- After the lint, going back to the last good version would be over additive migrations. -/
theorem lintMigrations_attains
    (steady : Steady (surroundings.audited isWord env) (fun query => query.kind = .read) holds)
    (head : ∀ world, holds world → world.head = sha) (prevGood : Option Sha) (start : holds world)
    : Attains (surroundings.audited isWord env) (lintMigrations isWord env prevGood)
        (fun _ later =>
          holds later
          ∧ ∀ since,
              prevGood.filter surroundings.commits = some since
              → surroundings.Cleared isWord env since sha)
        (fun _ => holds) world := by
  refine (Attains.lift (recoverable_ensures steady prevGood start)).bind ?_
  rintro found later ⟨here, rfl⟩
  cases prevGood.filter surroundings.commits with
  | none => exact steady.returns here fun later here => ⟨here, nofun⟩
  | some since =>
      refine reads_attains steady rfl here (fun _ _ => trivial) ?_
      intro listed before here told
      cases listed with
      | none => exact steady.dies here fun _ here => here
      | some files =>
          have same : surroundings.migrations since sha = files := by
            rcases told with never | told
            · cases never
            · rw [← head before here]
              exact (Option.some_inj.mp told).symm
          have ends (cleared : surroundings.Cleared isWord env since sha)
              {world : World Sha Plist} (here : holds world)
              : Attains (surroundings.audited isWord env) (pure () : Run Sha Plist Unit)
                  (fun _ later =>
                    holds later
                    ∧ ∀ version, some since = some version
                        → surroundings.Cleared isWord env version sha)
                  (fun _ => holds) world :=
            steady.returns here fun later here =>
              ⟨here, fun version equal => Option.some_inj.mp equal ▸ cleared⟩
          cases files with
          | nil => exact ends (.inr (.inl same)) here
          | cons file files =>
              cases allowed : env.allowContraction with
              | true => exact ends (.inl allowed) here
              | false =>
                  refine steady.attempts rfl here fun existing after here => ?_
                  by_cases additive
                      : Migration.lintDeploy isWord env.allowRoutine existing (file :: files)
                          = .additive
                  · rw [orDie, if_pos (decide_eq_true additive)]
                    exact ends (.inr (.inr ⟨existing, same ▸ additive⟩)) here
                  · rw [orDie, if_neg (by simpa using additive)]
                    exact steady.dies here fun _ here => here

/-- Install what is checked out and put it through the gate. -/
theorem gate_attains (steady : Steady (surroundings.audited isWord env) Query.Calm holds)
    {Result : Type} {post : Result → World Sha Plist → Prop}
    {raises : Fault → World Sha Plist → Prop} {rounds : Nat}
    {next : List Label → Bool → Run Sha Plist Result}
    (head : ∀ world, holds world → world.head = sha)
    (manages : ∀ world, holds world → world.managedLabels = managed) (start : holds world)
    (stands : world.installed = installed)
    (died : ∀ fault later, holds later → raises fault later)
    (continues
      : ∀ jobs healthy later,
          Selects (surroundings.tree sha).descriptors jobs → holds later
          → later.installed = settled managed jobs installed → later.venv = true
          → (healthy = true
            → Passes surroundings sha (settled managed jobs installed) managed
                (jobs.map Job.label) later)
          → Attains (surroundings.audited isWord env)
            (next (jobs.map Job.label) healthy) post raises
              later)
    : Attains (surroundings.audited isWord env)
        (installArtifacts >>= fun roleLabels =>
          go (healthGate env rounds roleLabels) >>= fun healthy => next roleLabels healthy)
        post raises world := by
  refine ((installArtifacts_attains steady head manages start stands).weaken
    (fun _ _ here => here) died).bind ?_
  rintro roleLabels later ⟨here, venv, jobs, selects, rfl, plists⟩
  have tracked := tracking (steady.and venv_steady) (settled managed jobs installed)
  refine (Attains.lift (healthGate_ensures tracked (fun world here => head world here.1.1)
    (fun world here => here.2) (fun world here => manages world here.1.1) rounds
    (jobs.map Job.label) ⟨⟨here, venv⟩, plists⟩)).bind ?_
  rintro healthy later ⟨⟨⟨here, venv⟩, plists⟩, passes⟩
  exact continues jobs healthy later selects here plists venv passes

/-- A revert ends, if it does, with the last good version in place. -/
theorem autoRevert_attains (start : World Sha Plist) (rounds : Nat) {bad prevGood : Sha}
    {badJobs : List (Job Plist)} (books : Books start world) (head : world.head = bad)
    (failed : bad ∈ world.failedGates) (good : start.runningSha = some prevGood)
    (cleared : surroundings.Cleared isWord env prevGood bad)
    (selects : Selects (surroundings.tree bad).descriptors badJobs)
    (stands : world.installed = settled start.managedLabels badJobs start.installed)
    : Attains (surroundings.audited isWord env) (autoRevert env rounds bad prevGood)
        (fun gated later =>
          Books start later
          ∧ ∃ jobs installed,
              Chosen surroundings start gated jobs installed
              ∧ Stands surroundings start.managedLabels gated installed later)
        (fun _ => Books start) world := by
  have marked
      : Steady (surroundings.audited isWord env) Query.Calm
          (fun world => Books start world ∧ bad ∈ world.failedGates) :=
    (books_steady start).and (failed_steady bad)
  have tracked := tracking (marked.and (head_steady bad))
    (settled start.managedLabels badJobs start.installed)
  refine ((quiesce_attains tracked rounds ⟨⟨⟨books, failed⟩, head⟩, stands⟩).weaken
    (fun _ _ here => here) (fun _ _ here => here.1.1.1)).bind ?_
  rintro _ later ⟨here, gone⟩
  have quiet := (tracked.fewer tidy_of_reads).and (gone_steady MUTATING_TICKS)
  refine quiet.tries ⟨here, gone⟩ (fun later both => ⟨both.2, both.1.1.2 ▸ cleared⟩) ?_
  rintro succeeded before after ⟨⟨⟨⟨books, failed⟩, head⟩, stands⟩, _⟩ answered
  have frame := does_frame answered.2
  have books := books.framed frame nofun
  have failed := frame.failedGates failed
  have stands := (frame.installed nofun).trans stands
  refine orDie_attains marked ⟨books, failed⟩ (fun _ here => here.1) fun went => ?_
  have back : after.head = prevGood := by
    obtain ⟨never, _⟩ | ⟨_, target, rfl⟩ := answered.2
    · cases went.symm.trans never
    · exact (Option.some_inj.mp target).symm
  have reset := tracking (marked.and (head_steady prevGood))
    (settled start.managedLabels badJobs start.installed)
  refine reset.attempts (tidy_of_reads rfl) ⟨⟨⟨books, failed⟩, back⟩, stands⟩ ?_
  rintro cleaned after here
  refine orDie_attains reset here (fun _ here => here.1.1.1) fun _ => ?_
  refine gate_attains (marked.and (head_steady prevGood)) (fun _ here => here.2)
    (fun _ here => here.1.1.managedLabels) here.1 here.2 (fun _ _ here => here.1.1) ?_
  rintro jobs healthy later chosen here stands venv passes
  cases healthy with
  | false => exact (marked.and (head_steady prevGood)).dies here fun _ here => here.1.1
  | true =>
      have lasting : Steady (surroundings.audited isWord env) _ _ :=
        ((books_steady start).fewer fun reads => (tidy_of_reads reads).1).and
          (stands_lasts start.managedLabels ⟨prevGood, jobs.map Job.label, some bad⟩
            (settled start.managedLabels jobs
              (settled start.managedLabels badJobs start.installed)))
      refine lasting.returns ⟨here.1.1, passes rfl, stands, venv, ?_⟩ fun later here => ?_
      · rintro other same
        exact Option.some_inj.mp same ▸ here.1.2
      · exact ⟨here.1, jobs, _,
          ⟨chosen, rfl, ⟨badJobs, selects, rfl⟩, fun _ _ => good⟩, here.2⟩

/-- A converge ends, if it does, with a version that has passed the gate. -/
theorem converge_attains (start : World Sha Plist) (rounds : Nat) (books : Books start world)
    (stands : world.installed = start.installed)
    : Attains (surroundings.audited isWord env) (converge isWord env rounds)
        (fun gated later =>
          Books start later
          ∧ ∃ jobs installed,
              Chosen surroundings start gated jobs installed
              ∧ Stands surroundings start.managedLabels gated installed later)
        (fun _ => Books start) world := by
  have tracked
      : Steady (surroundings.audited isWord env) Query.Tidy
          (fun world => Books start world ∧ world.installed = start.installed) :=
    tracking (books_steady start) start.installed
  refine tracked.attempts (tidy_of_reads rfl) ⟨books, stands⟩ fun succeeded after here => ?_
  refine orDie_attains tracked here (fun _ here => here.1) fun _ => ?_
  refine tracked.attempts (tidy_of_reads rfl) here fun succeeded after here => ?_
  refine orDie_attains tracked here (fun _ here => here.1) fun _ => ?_
  refine reads_attains tracked rfl here (fun _ _ => trivial) ?_
  intro prevGood before here told
  have read : prevGood = start.runningSha := told.trans here.1.runningSha
  subst read
  refine reads_attains tracked rfl here (fun _ _ => trivial) ?_
  intro headSha before here told
  cases headSha with
  | none => exact tracked.dies here fun _ here => here.1
  | some head =>
      have at_ : before.head = head := by
        rcases told with never | told
        · cases never
        · exact (Option.some_inj.mp told).symm
      have placed
          : Steady (surroundings.audited isWord env) Query.Calm
              (fun world => Books start world ∧ world.head = head) :=
        (books_steady start).and (head_steady head)
      have both := tracking placed start.installed
      refine ((lintMigrations_attains (both.fewer tidy_of_reads) (fun _ here => here.1.2)
        start.runningSha ⟨⟨here.1, at_⟩, here.2⟩).weaken
        (fun _ _ here => here) (fun _ _ here => here.1.1)).bind ?_
      rintro _ later ⟨here, cleared⟩
      refine gate_attains placed (fun _ here => here.2) (fun _ here => here.1.managedLabels) here.1
        here.2 (fun _ _ here => here.1) ?_
      rintro jobs healthy later chosen here stands venv passes
      have lasting : Steady (surroundings.audited isWord env) _ _ :=
        ((books_steady start).fewer fun reads => (tidy_of_reads reads).1).and
          (stands_lasts start.managedLabels ⟨head, jobs.map Job.label, none⟩
            (settled start.managedLabels jobs start.installed))
      cases healthy with
      | true =>
          refine lasting.returns ⟨here.1, passes rfl, stands, venv, nofun⟩ fun later here => ?_
          exact ⟨here.1, jobs, _, ⟨chosen, rfl, rfl, nofun⟩, here.2⟩
      | false =>
          have installed := tracking placed (settled start.managedLabels jobs start.installed)
          refine installed.tries ⟨here, stands⟩ (fun _ _ => trivial) ?_
          intro _ before after here answered
          have logged : (Query.logFailedGate head : Query Sha Plist).Tidy :=
            ⟨⟨nofun, nofun⟩, nofun⟩
          have kept := installed.step logged here answered
          have failed : head ∈ after.failedGates := by
            rw [answered.2]
            exact List.mem_append_right _ (List.mem_singleton_self head)
          have marked := installed.and ((failed_steady head).fewer And.left)
          refine (Attains.lift (recoverable_ensures (marked.fewer tidy_of_reads) start.runningSha
            ⟨kept, failed⟩)).bind ?_
          rintro found later ⟨⟨⟨⟨books, here⟩, stands⟩, failed⟩, same⟩
          cases found with
          | none => exact placed.dies ⟨books, here⟩ fun _ here => here.1
          | some prevGood =>
              have good : start.runningSha = some prevGood :=
                (Option.filter_eq_some_iff.mp same.symm).1
              exact autoRevert_attains start rounds books here failed good
                (cleared prevGood same.symm) chosen stands

-- The commit point

theorem filed_lasts (gated : Gated Sha) (installed : Label → Option Plist)
    (running quarantined : Option Sha) (managed labels : Option (List Label))
    : Steady (surroundings.audited isWord env) (fun query => query.kind = .read)
        (fun world =>
          Stands surroundings managed gated installed world
            ∧ Filed running quarantined labels world) :=
  (stands_lasts managed gated installed).and
    ((filed_steady running quarantined labels).fewer fun reads => (tidy_of_reads reads).1)

omit [DecidableEq Plist] in
/-- Every plist that the jobs leave is one of their own. By induction on the jobs. -/
theorem overlay_own (jobs : List (Job Plist)) (installed : Label → Option Plist) {label : Label}
    (own : label ∈ jobs.map Job.label)
    : ∃ job ∈ jobs, job.label = label ∧ overlay jobs installed label = job.plist := by
  induction jobs generalizing installed with
  | nil => cases own
  | cons job rest ih =>
      by_cases later : label ∈ rest.map Job.label
      · obtain ⟨found, among, facts⟩ := ih (Function.update installed job.label job.plist) later
        exact ⟨found, List.mem_cons_of_mem _ among, facts⟩
      · have same : label = job.label := (List.mem_cons.mp own).resolve_right later
        refine ⟨job, List.mem_cons_self, same.symm, ?_⟩
        rw [overlay, List.foldl_cons]
        refine (overlay_other rest _ later).trans ?_
        rw [same, Function.update_self]

omit [DecidableEq Plist] in
theorem settled_own (managed : Option (List Label)) (jobs : List (Job Plist))
    (installed : Label → Option Plist) {label : Label} (own : label ∈ jobs.map Job.label)
    : ∃ job ∈ jobs, job.label = label ∧ settled managed jobs installed label = job.plist := by
  rw [settled, pruned, if_neg fun gone => gone.2.1 own]
  exact overlay_own jobs installed own

omit [DecidableEq Plist] in
theorem Selects.renders {descriptors : List (Option (Job Plist))} {jobs : List (Job Plist)}
    (selects : Selects descriptors jobs)
    : ∀ job ∈ jobs, job.plist.isSome := by
  induction selects with
  | nil => exact nofun
  | elsewhere _ _ ih => exact ih
  | unarmed _ _ _ ih => exact ih
  | installed _ renders _ ih => exact List.forall_mem_cons.mpr ⟨renders, ih⟩

omit [DecidableEq Plist] in
/-- Where there is a plist of a tick after its version was installed. -/
theorem settled_isSome {descriptors : List (Option (Job Plist))} {jobs : List (Job Plist)}
    (selects : Selects descriptors jobs) {label : Label} (tick : label.IsTick)
    {managed : Option (List Label)} {installed : Label → Option Plist}
    : (settled managed jobs installed label).isSome
      ↔ label ∈ jobs.map Job.label
        ∨ label ∉ managed.getD [] ∧ (installed label).isSome := by
  by_cases own : label ∈ jobs.map Job.label
  · obtain ⟨job, among, _, same⟩ := settled_own managed jobs installed own
    simp only [own, true_or, iff_true]
    exact same ▸ selects.renders job among
  · simp only [own, false_or, settled, pruned, not_false_eq_true, true_and]
    split_ifs with gone
    · simp [gone.1]
    · have kept : label ∉ managed.getD [] := fun among => gone ⟨among, tick.1, tick.2⟩
      rw [overlay_other jobs installed own]
      simp [kept]

omit [DecidableEq Sha] [DecidableEq Plist] in
theorem Stands.healthy (stands : Stands surroundings start.managedLabels gated installed world)
    (chosen : Chosen surroundings start gated jobs installed)
    : surroundings.Healthy gated.sha jobs world where
  head := stands.passes.serve.head
  selects := chosen.selects
  serve := fun process serves => (stands.passes.serve.serve process serves).resolve_right nofun
  migrated := stands.passes.migrated
  plists := by
    intro label own
    rw [stands.installed]
    have installs := chosen.installs
    cases outcome : gated.bad with
    | none =>
        rw [outcome] at installs
        exact installs ▸ settled_own start.managedLabels jobs start.installed own
    | some bad =>
        rw [outcome] at installs
        obtain ⟨badJobs, _, rfl⟩ := installs
        exact settled_own start.managedLabels jobs _ own
  ticks := by
    intro label own tick
    obtain ⟨plist, there, loaded⟩ := stands.passes.ticks label (chosen.labels ▸ own) tick
    exact ⟨plist, stands.installed ▸ there, loaded⟩
  venv := stands.venv

/-- The quarantine is for a version that has failed. -/
theorem setQuarantine_attains {running quarantined : Option Sha} {labels : Option (List Label)}
    (stands : Stands surroundings managed gated installed world)
    (filed : Filed running quarantined labels world)
    : Attains (surroundings.audited isWord env) (setQuarantine gated.bad)
        (fun _ later =>
          Stands surroundings managed gated installed later ∧ Filed running gated.bad labels later)
        (fun _ later => later.runningSha = running) world := by
  have lasting : Steady (surroundings.audited isWord env) _ _ :=
    filed_lasts gated installed running quarantined managed labels
  have written : Steady (surroundings.audited isWord env) _ _ :=
    filed_lasts gated installed running gated.bad managed labels
  cases outcome : gated.bad with
  | none =>
      rw [outcome] at written
      refine lasting.tries ⟨stands, filed⟩ (fun _ _ => trivial) ?_
      rintro succeeded before after ⟨stands, filed⟩ answered
      have stands := stands.framed (.inr rfl) (does_frame answered.2)
      have done := answered.2
      cases succeeded with
      | false =>
          cases done
          exact lasting.dies ⟨stands, filed⟩ fun _ here => here.2.runningSha
      | true =>
          cases done
          exact written.returns ⟨stands, filed.runningSha, rfl, filed.managedLabels⟩
            fun _ here => here
  | some bad =>
      rw [outcome] at written
      refine lasting.tries ⟨stands, filed⟩ (fun later here => here.1.failed bad outcome) ?_
      rintro succeeded before after ⟨stands, filed⟩ answered
      have stands := stands.framed (.inr rfl) (does_frame answered.2)
      have done := answered.2
      cases succeeded with
      | false =>
          cases done
          exact lasting.dies ⟨stands, filed⟩ fun _ here => here.2.runningSha
      | true =>
          cases done
          exact written.returns ⟨stands, filed.runningSha, rfl, filed.managedLabels⟩
            fun _ here => here

/-- The receipt is written where the version has passed and its labels are recorded. -/
theorem commit_attains (start : World Sha Plist) (books : Books start world)
    (chosen : Chosen surroundings start gated jobs installed)
    (stands : Stands surroundings start.managedLabels gated installed world)
    : Attains (surroundings.audited isWord env) (commit gated)
        (fun _ later =>
          Stands surroundings start.managedLabels gated installed later
          ∧ Filed (some gated.sha) gated.bad (some gated.roleLabels) later)
        (fun _ later => later.runningSha = start.runningSha) world := by
  refine (setQuarantine_attains stands
    ⟨books.runningSha, books.quarantinedSha, books.managedLabels⟩).bind ?_
  rintro _ later here
  have quarantined : Steady (surroundings.audited isWord env) _ _ :=
    filed_lasts gated installed start.runningSha gated.bad start.managedLabels start.managedLabels
  refine quarantined.tries here (fun _ _ => trivial) ?_
  rintro succeeded before after ⟨stands, filed⟩ answered
  have stands := stands.framed (.inr rfl) (does_frame answered.2)
  have done := answered.2
  cases succeeded with
  | false =>
      cases done
      exact quarantined.dies ⟨stands, filed⟩ fun _ here => here.2.runningSha
  | true =>
      cases done
      have managed : Steady (surroundings.audited isWord env) _ _ :=
        filed_lasts gated installed start.runningSha gated.bad start.managedLabels
          (some gated.roleLabels)
      refine managed.attempts rfl ⟨stands, filed.runningSha, filed.quarantinedSha, rfl⟩ ?_
      intro succeeded after here
      refine orDie_attains managed here (fun _ here => here.2.runningSha) fun _ => ?_
      refine managed.tries here (fun later here => ?_) ?_
      · exact ⟨jobs, here.1.healthy chosen, here.2.managedLabels.trans (chosen.labels ▸ rfl)⟩
      rintro succeeded before after ⟨stands, filed⟩ answered
      have stands := stands.framed (.inr rfl) (does_frame answered.2)
      have done := answered.2
      cases succeeded with
      | false =>
          cases done
          exact managed.dies ⟨stands, filed⟩ fun _ here => here.2.runningSha
      | true =>
          cases done
          have written : Steady (surroundings.audited isWord env) _ _ :=
            filed_lasts gated installed (some gated.sha) gated.bad start.managedLabels
              (some gated.roleLabels)
          exact written.returns ⟨stands, rfl, filed.quarantinedSha, filed.managedLabels⟩
            fun _ here => here

end Converge

-- A poll

/-- Nothing that is deployed has changed. -/
structure Untouched (start world : World Sha Plist) : Prop where
  books : Books start world
  head : world.head = start.head
  installed : world.installed = start.installed

/-- The world after a receipt; the plist of the poll itself may have been removed since. -/
structure Receipt (surroundings : Surroundings Sha Plist) (start : World Sha Plist)
    (gated : Gated Sha) (world : World Sha Plist)
    : Prop where
  filed : Filed (some gated.sha) gated.bad (some gated.roleLabels) world
  head : world.head = gated.sha
  failed : ∀ bad, gated.bad = some bad → bad ∈ world.failedGates
  chosen
    : ∃ jobs installed,
        Chosen surroundings start gated jobs installed
        ∧ ∀ label, label ≠ .reconcile → world.installed label = installed label

/-- How a poll that does not die leaves the world. -/
def Ended (surroundings : Surroundings Sha Plist) (start : World Sha Plist) (ending : Ending Sha)
    (world : World Sha Plist)
    : Prop :=
  Untouched start world ∧ (ending = .disarmed ∨ ending = .held ∨ ending = .skipped)
  ∨ ∃ gated, ending = gated.ending ∧ Receipt surroundings start gated world

section Poll

variable {surroundings : Surroundings Sha Plist} {isWord : Char → Bool} {env : Env}
  {quiet : Query Sha Plist → Prop} {holds : World Sha Plist → Prop}
  {world start : World Sha Plist}

theorem untouched_steady (start : World Sha Plist)
    : Steady (surroundings.audited isWord env) Query.Tidy (Untouched start) := by
  refine (tracking ((books_steady start).and (head_steady start.head)) start.installed).congr
    fun world => ?_
  constructor
  · rintro ⟨⟨books, head⟩, installed⟩
    exact ⟨books, head, installed⟩
  · exact fun untouched => ⟨⟨untouched.books, untouched.head⟩, untouched.installed⟩

theorem upToDate_ensures (steady : Steady (surroundings.audited isWord env) Query.Tidy holds)
    (start : holds world)
    : upToDate.Ensures (surroundings.audited isWord env) (fun _ => holds) world := by
  have ends {answer : Bool} {world : World Sha Plist} (start : holds world)
      : (pure answer : Step Sha Plist Bool).Ensures (surroundings.audited isWord env)
          (fun _ => holds) world :=
    steady.ends start fun _ here => here
  refine steady.asks (tidy_of_reads rfl) start fun status after here => ?_
  cases status with
  | failed => exact ends here
  | dirty => exact ends here
  | clean =>
      refine steady.asks (tidy_of_reads rfl) here fun configured after here => ?_
      cases configured with
      | false => exact ends here
      | true =>
          refine steady.asks ⟨⟨nofun, nofun⟩, nofun⟩ here fun fetched after here => ?_
          cases fetched with
          | false => exact ends here
          | true =>
              refine steady.asks (tidy_of_reads rfl) here fun checked after here => ?_
              refine steady.asks (tidy_of_reads rfl) here fun status after here => ?_
              cases status <;> exact ends here

theorem fetchTwice_ensures (steady : Steady (surroundings.audited isWord env) Query.Tidy holds)
    (start : holds world)
    : fetchTwice.Ensures (surroundings.audited isWord env) (fun _ => holds) world := by
  refine steady.asks ⟨⟨nofun, nofun⟩, nofun⟩ start fun fetched after here => ?_
  cases fetched with
  | true => exact steady.ends here fun _ here => here
  | false =>
      refine steady.asks ⟨⟨nofun, nofun⟩, nofun⟩ here fun fetched after here => ?_
      exact steady.ends here fun _ here => here

/-- Up to its trap, the static fetcher changes nothing that is deployed. -/
theorem bootstrapFetch_attains
    (steady : Steady (surroundings.audited isWord env) Query.Tidy holds) (start : holds world)
    : Attains (surroundings.audited isWord env) (bootstrapFetch env)
        (fun ending later =>
          holds later
          ∧ ∀ early, ending = some early → early = .disarmed ∨ early = .held ∨ early = .skipped)
        (fun _ => holds) world := by
  have ends {ending : Option (Ending Sha)} {world : World Sha Plist} (start : holds world)
      (early
        : ∀ early, ending = some early → early = .disarmed ∨ early = .held ∨ early = .skipped)
      : Attains (surroundings.audited isWord env) (pure ending : Run Sha Plist _)
          (fun ending later =>
            holds later
            ∧ ∀ early, ending = some early → early = .disarmed ∨ early = .held ∨ early = .skipped)
          (fun _ => holds) world :=
    steady.returns start fun _ here => ⟨here, early⟩
  refine steady.attempts (tidy_of_reads rfl) start fun configured after here => ?_
  refine orDie_attains steady here (fun _ here => here) fun _ => ?_
  refine steady.attempts (tidy_of_reads rfl) here fun armed after here => ?_
  split_ifs with held
  · exact ends here (by simp)
  refine steady.attempts (tidy_of_reads rfl) here fun isClone after here => ?_
  refine orDie_attains steady here (fun _ here => here) fun _ => ?_
  refine (Attains.lift (fetchTwice_ensures steady here)).bind fun fetched later here => ?_
  refine orDie_attains steady here (fun _ here => here) fun _ => ?_
  refine steady.attempts (tidy_of_reads rfl) here fun origin after here => ?_
  cases origin with
  | none => exact steady.dies here fun _ here => here
  | some origin =>
      refine steady.attempts (tidy_of_reads rfl) here fun head after here => ?_
      cases head with
      | none => exact steady.dies here fun _ here => here
      | some head =>
          refine steady.attempts (tidy_of_reads rfl) here fun running after here => ?_
          refine steady.attempts (tidy_of_reads rfl) here fun quarantined after here => ?_
          split_ifs with quarantine same
          · exact ends here (by simp)
          · refine (Attains.lift (upToDate_ensures steady here)).bind fun clean later here => ?_
            cases clean with
            | true => exact ends here (by simp)
            | false => exact ends here (by simp)
          · exact ends here (by simp)

/-- The clone goes to the origin while no tick runs. -/
theorem resetToOrigin_attains (start : World Sha Plist) (rounds : Nat)
    (untouched : Untouched start world)
    : Attains (surroundings.audited isWord env) (resetToOrigin rounds)
        (fun _ later => Books start later ∧ later.installed = start.installed)
        (fun _ => Books start) world := by
  have tracked
      : Steady (surroundings.audited isWord env) Query.Tidy
          (fun world => Books start world ∧ world.installed = start.installed) :=
    tracking (books_steady start) start.installed
  refine ((quiesce_attains tracked rounds ⟨untouched.books, untouched.installed⟩).weaken
    (fun _ _ here => here) (fun _ _ here => here.1)).bind ?_
  rintro _ later ⟨here, gone⟩
  have quiet := (tracked.fewer tidy_of_reads).and (gone_steady MUTATING_TICKS)
  refine quiet.tries ⟨here, gone⟩ (fun later both => both.2) ?_
  rintro succeeded before after ⟨⟨books, stands⟩, _⟩ answered
  have frame := does_frame answered.2
  have here := And.intro (books.framed frame nofun) ((frame.installed nofun).trans stands)
  refine orDie_attains tracked here (fun _ here => here.1) fun _ => ?_
  refine tracked.attempts (tidy_of_reads rfl) here fun cleaned after here => ?_
  refine orDie_attains tracked here (fun _ here => here.1) fun _ => ?_
  refine tracked.attempts (tidy_of_reads rfl) here fun exists_ after here => ?_
  cases exists_ with
  | true => exact tracked.returns here fun _ here => here
  | false => exact tracked.dies here fun _ here => here.1

theorem receipt_steady (start : World Sha Plist) (gated : Gated Sha)
    : Steady (surroundings.audited isWord env) Query.Tidy (Receipt surroundings start gated) := by
  refine steady_of And.left (fun moved receipt => ?_) fun tidy frame receipt => ?_
  · obtain ⟨jobs, installed, chosen, stands⟩ := receipt.chosen
    refine ⟨⟨moved.runningSha.trans receipt.filed.runningSha,
      moved.quarantinedSha.trans receipt.filed.quarantinedSha,
      moved.managedLabels.trans receipt.filed.managedLabels⟩, moved.head.trans receipt.head,
      moved.failedGates ▸ receipt.failed, jobs, installed, chosen, moved.installed ▸ stands⟩
  · obtain ⟨jobs, installed, chosen, stands⟩ := receipt.chosen
    refine ⟨⟨(frame.runningSha tidy.1.2).trans receipt.filed.runningSha,
      (frame.quarantinedSha tidy.1.2).trans receipt.filed.quarantinedSha,
      (frame.managedLabels tidy.1.2).trans receipt.filed.managedLabels⟩,
      (frame.head tidy.1.1).trans receipt.head,
      fun bad same => frame.failedGates (receipt.failed bad same), jobs, installed, chosen,
      frame.installed tidy.2 ▸ stands⟩

omit [DecidableEq Sha] [DecidableEq Plist] in
/-- The plist of the poll does not count in a receipt. -/
theorem Receipt.removed {gated : Gated Sha} (receipt : Receipt surroundings start gated world)
    : Receipt surroundings start gated (world.setInstalled .reconcile none) where
  filed := ⟨receipt.filed.runningSha, receipt.filed.quarantinedSha, receipt.filed.managedLabels⟩
  head := receipt.head
  failed := receipt.failed
  chosen := by
    obtain ⟨jobs, installed, chosen, stands⟩ := receipt.chosen
    exact ⟨jobs, installed, chosen, fun label other =>
      (Function.update_of_ne other _ _).trans (stands label other)⟩

theorem report_ensures (steady : Steady (surroundings.audited isWord env) Query.Tidy holds)
    (bad : Option Sha) (start : holds world)
    : (report bad).Ensures (surroundings.audited isWord env) (fun _ => holds) world := by
  have recon {world : World Sha Plist} (start : holds world)
      : (ask Query.recon : Step Sha Plist Unit).Ensures (surroundings.audited isWord env)
          (fun _ => holds) world := by
    refine Ensures.call fun before moved => ⟨trivial, fun _ after answered => ?_⟩
    have here := steady.step (tidy_of_reads rfl) (steady.stable start moved) answered
    exact Ensures.done fun later moved => steady.stable here moved
  unfold report
  split_ifs with failed
  · exact steady.asks (tidy_of_reads rfl) start fun _ after here => recon here
  · exact recon start

/-- The last action leaves the receipt, and the other plists. -/
theorem disarm_attains {gated : Gated Sha} (receipt : Receipt surroundings start gated world)
    : Attains (surroundings.audited isWord env) disarm
        (fun _ => Receipt surroundings start gated)
        (fun fault _ => fault = .disarmFailed) world := by
  have steady : Steady (surroundings.audited isWord env) Query.Tidy
      (Receipt surroundings start gated) :=
    receipt_steady start gated
  have ends {world : World Sha Plist} (receipt : Receipt surroundings start gated world)
      : Attains (surroundings.audited isWord env) (pure () : Run Sha Plist Unit)
          (fun _ => Receipt surroundings start gated)
          (fun fault _ => fault = .disarmFailed) world :=
    steady.returns receipt fun _ here => here
  refine steady.attempts (tidy_of_reads rfl) receipt fun armed after here => ?_
  cases armed with
  | true => exact ends here
  | false =>
      refine steady.attempts (tidy_of_reads rfl) here fun there after here => ?_
      cases there with
      | false => exact ends here
      | true =>
          refine steady.tries here (fun _ _ => trivial) ?_
          intro succeeded before after receipt answered
          have here : Receipt surroundings start gated after := by
            have done := answered.2
            cases succeeded with
            | false =>
                cases done
                exact receipt
            | true =>
                cases done
                exact receipt.removed
          refine orDie_attains steady here (fun _ _ => rfl) fun _ => ?_
          refine steady.attempts ⟨⟨nofun, nofun⟩, nofun⟩ here fun _ after here => ?_
          refine steady.attempts (tidy_of_reads rfl) here fun there after here => ?_
          cases there with
          | false => exact ends here
          | true =>
              refine steady.attempts ⟨⟨nofun, nofun⟩, nofun⟩ here fun _ after here => ?_
              refine steady.attempts (tidy_of_reads rfl) here fun there after here => ?_
              cases there with
              | false => exact ends here
              | true =>
                  refine steady.attempts (tidy_of_reads rfl) here fun _ after here => ?_
                  exact steady.dies here fun _ _ => rfl

/-- One poll, from any world: only such commands that count as are permitted where they are given,
and a poll that dies has left the last good version in its record.
-/
theorem poll_attains (surroundings : Surroundings Sha Plist) (isWord : Char → Bool) (env : Env)
    (rounds : Nat) (start : World Sha Plist)
    : Attains (surroundings.audited isWord env) (poll isWord env rounds)
        (Ended surroundings start)
        (fun fault later => fault = .disarmFailed ∨ later.runningSha = start.runningSha) start := by
  have untouched : Untouched start start := ⟨⟨rfl, rfl, rfl, List.Subset.refl _⟩, rfl, rfl⟩
  refine ((bootstrapFetch_attains (untouched_steady start) untouched).weaken
    (fun _ _ here => here) (fun _ _ here => .inr here.books.runningSha)).bind ?_
  rintro ending later ⟨untouched, early⟩
  cases ending with
  | some ending =>
      exact (untouched_steady start).returns untouched fun later here =>
        .inl ⟨here, early ending rfl⟩
  | none =>
      have booked : Steady (surroundings.audited isWord env) Query.Tidy (Books start) :=
        (books_steady start).fewer And.left
      refine ((guarded_attains booked (resetToOrigin_attains start rounds untouched)).weaken
        (fun _ _ here => here) (fun _ _ here => .inr here.runningSha)).bind ?_
      rintro _ later ⟨books, stands⟩
      refine ((guarded_attains booked (converge_attains start rounds books stands)).weaken
        (fun _ _ here => here) (fun _ _ here => .inr here.runningSha)).bind ?_
      rintro gated later ⟨books, jobs, installed, chosen, stands⟩
      refine ((commit_attains start books chosen stands).weaken
        (fun _ _ here => here) (fun _ _ here => .inr here)).bind ?_
      rintro _ later ⟨stands, filed⟩
      have receipt : Receipt surroundings start gated later :=
        ⟨filed, stands.passes.serve.head, stands.failed, jobs, installed, chosen,
          fun label _ => congrFun stands.installed label⟩
      refine (Attains.lift (report_ensures (receipt_steady start gated) gated.bad receipt)).bind ?_
      rintro _ later receipt
      refine ((disarm_attains receipt).weaken (fun _ _ here => here)
        (fun _ _ same => .inl same)).bind ?_
      rintro _ later receipt
      exact (receipt_steady start gated).returns receipt fun later here =>
        .inr ⟨gated, rfl, here⟩

/-- Only such commands are given as are permitted: the clone is reset while no tick is there, and
back to the last good version only over additive migrations; a version is quarantined that has
failed the gate in front of the log; and `RUNNING_SHA` is written for a version that is checked out,
has passed, and has its labels recorded. A poll that dies has left `RUNNING_SHA` alone, unless it
was the disarming that failed.
-/
theorem poll_permitted (surroundings : Surroundings Sha Plist) (isWord : Char → Bool) (env : Env)
    (rounds : Nat) (start : World Sha Plist)
    : Attains (surroundings.audited isWord env) (poll isWord env rounds)
        (fun ending later =>
          match ending with
          | .disarmed | .held | .skipped => Untouched start later
          | .converged sha =>
              later.head = sha ∧ later.runningSha = some sha ∧ later.quarantinedSha = none
          | .reverted bad good =>
              later.head = good ∧ later.runningSha = some good ∧ start.runningSha = some good
              ∧ later.quarantinedSha = some bad ∧ bad ∈ later.failedGates)
        (fun fault later => fault = .disarmFailed ∨ later.runningSha = start.runningSha) start := by
  refine (poll_attains surroundings isWord env rounds start).weaken ?_ fun _ _ died => died
  rintro ending later (⟨untouched, rfl | rfl | rfl⟩ | ⟨gated, rfl, receipt⟩)
  · exact untouched
  · exact untouched
  · exact untouched
  · obtain ⟨jobs, installed, chosen, _⟩ := receipt.chosen
    cases outcome : gated.bad with
    | none =>
        simp only [Gated.ending, outcome]
        exact ⟨receipt.head, receipt.filed.runningSha, receipt.filed.quarantinedSha.trans outcome⟩
    | some bad =>
        simp only [Gated.ending, outcome]
        exact ⟨receipt.head, receipt.filed.runningSha, chosen.reverts bad outcome,
          receipt.filed.quarantinedSha.trans outcome, receipt.failed bad outcome⟩

/-- The plists that a poll leaves are told by the jobs that it has installed. A label that is no
role's any more goes only if it was managed before the poll: after a revert, one that only the bad
version has brought stays.
-/
theorem poll_installs (surroundings : Surroundings Sha Plist) (isWord : Char → Bool) (env : Env)
    (rounds : Nat) (start : World Sha Plist)
    : Attains (surroundings.audited isWord env) (poll isWord env rounds)
        (fun ending later =>
          match ending with
          | .disarmed | .held | .skipped => later.installed = start.installed
          | .converged sha =>
              ∃ jobs,
                Selects (surroundings.tree sha).descriptors jobs
                ∧ later.managedLabels = some (jobs.map Job.label)
                ∧ ∀ label, label.IsTick
                    → (label ∈ jobs.map Job.label
                        → ∃ job ∈ jobs,
                            job.label = label ∧ later.installed label = job.plist)
                      ∧ ((later.installed label).isSome
                          ↔ label ∈ jobs.map Job.label
                            ∨ label ∉ start.managedLabels.getD []
                              ∧ (start.installed label).isSome)
          | .reverted bad good =>
              ∃ jobs badJobs,
                Selects (surroundings.tree good).descriptors jobs
                ∧ Selects (surroundings.tree bad).descriptors badJobs
                ∧ later.managedLabels = some (jobs.map Job.label)
                ∧ ∀ label, label.IsTick
                    → (label ∈ jobs.map Job.label
                        → ∃ job ∈ jobs,
                            job.label = label ∧ later.installed label = job.plist)
                      ∧ ((later.installed label).isSome
                          ↔ label ∈ jobs.map Job.label
                            ∨ label ∉ start.managedLabels.getD []
                              ∧ (label ∈ badJobs.map Job.label
                                ∨ (start.installed label).isSome)))
        (fun _ _ => True) start := by
  refine (poll_attains surroundings isWord env rounds start).weaken ?_ fun _ _ _ => trivial
  rintro ending later (⟨untouched, rfl | rfl | rfl⟩ | ⟨gated, rfl, receipt⟩)
  · exact untouched.installed
  · exact untouched.installed
  · exact untouched.installed
  · obtain ⟨jobs, installed, chosen, stands⟩ := receipt.chosen
    have installs := chosen.installs
    have managed := receipt.filed.managedLabels.trans (congrArg some chosen.labels)
    cases outcome : gated.bad with
    | none =>
        rw [outcome] at installs
        simp only [Gated.ending, outcome]
        refine ⟨jobs, chosen.selects, managed, fun label tick => ?_⟩
        rw [stands label tick.2, installs]
        exact ⟨settled_own start.managedLabels jobs start.installed,
          settled_isSome chosen.selects tick⟩
    | some bad =>
        rw [outcome] at installs
        obtain ⟨badJobs, selects, installs⟩ := installs
        simp only [Gated.ending, outcome]
        refine ⟨jobs, badJobs, chosen.selects, selects, managed, fun label tick => ?_⟩
        rw [stands label tick.2, installs]
        refine ⟨settled_own start.managedLabels jobs _, ?_⟩
        rw [settled_isSome chosen.selects tick, settled_isSome selects tick]
        grind

/-- A tick for the factory. -/
def sampleJob (label : Label) (plist : Nat) : Option (Job Nat) :=
  some { label, roles := [.factory], requiresSentinel := none, plist := some plist }

/-- The first version brings the controller, the second one also another tick. -/
def sampleTree : Nat → Version Nat
  | 1 => ⟨[sampleJob .controller 10], some "job"⟩
  | _ => ⟨[sampleJob .controller 20, sampleJob .fixSweep 21], some "attempt"⟩

/-- A machine at which others set and remove sentinels, and do nothing else. -/
def sampleSurroundings : Surroundings Nat Nat where
  tree := sampleTree
  commits := fun _ => true
  migrations := fun _ _ => []
  others := fun world later => ∃ sentinel, later = { world with sentinel }
  others_refl := fun world => ⟨world.sentinel, rfl⟩
  others_trans := by
    rintro _ _ _ ⟨_, rfl⟩ ⟨sentinel, rfl⟩
    exact ⟨sentinel, rfl⟩
  moves := by
    rintro world _ ⟨sentinel, rfl⟩
    exact ⟨rfl, rfl, rfl, rfl, rfl, rfl, rfl, fun _ => .inl rfl, .inl rfl, List.Subset.refl _⟩

/-- The first version runs when the second one is pushed. -/
def sampleWorld : World Nat Nat where
  upstream := 2
  originMain := some 1
  head := 1
  runningSha := some 1
  quarantinedSha := none
  managedLabels := some [.controller]
  installed := Function.update (fun _ => none) .controller (some 10)
  service := fun label =>
    match label with
    | .controller => .loaded 10
    | .runtime => .loaded 0
    | _ => .absent
  serve := some ⟨7, 1⟩
  relations := ["job"]
  sentinel := fun _ => true
  venv := true
  failedGates := []

/-- The commands do what they are asked to do, but serve does not come up with the second version.
-/
def sampleAnswers
    : (query : Query Nat Nat) → World Nat Nat → Except Unit (Answer query × World Nat Nat)
  | .fetch, world => .ok (true, { world with originMain := some world.upstream })
  | .originSha, world => .ok (world.originMain, world)
  | .headSha, world => .ok (some world.head, world)
  | .runningSha, world => .ok (world.runningSha, world)
  | .quarantinedSha, world => .ok (world.quarantinedSha, world)
  | .status, world => .ok (.clean, world)
  | .sentinelExists sentinel, world => .ok (world.sentinel sentinel, world)
  | .check healthOnly, world => .ok (checks sampleTree healthOnly world, world)
  | .print label, world => .ok ((world.service label).isThere, world)
  | .bootout label, world => .ok ((), world.setService label .absent)
  | .bootstrap label, world =>
      match world.service label, world.installed label with
      | .absent, some plist => .ok (true, world.setService label (.loaded plist))
      | _, _ => .ok (false, world)
  | .deadline, world | .workers, world => .ok (false, world)
  | .reset target, world =>
      match target.resolve world with
      | some sha => .ok (true, { world with head := sha })
      | none => .ok (false, world)
  | .migrations _, world => .ok (some [], world)
  | .descriptors, world => .ok ((sampleTree world.head).descriptors, world)
  | .render job, world => .ok (job.plist, world)
  | .unchanged .., world => .ok (false, world)
  | .install label plist, world => .ok (true, world.setInstalled label (some plist))
  | .remove label, world => .ok (true, world.setInstalled label none)
  | .managedLabels, world => .ok (world.managedLabels, world)
  | .migrationHead, world => .ok ((sampleTree world.head).migrationHead, world)
  | .servePid, world => .ok (world.serve.map Process.pid, world)
  | .kickstart, world =>
      .ok (true, if world.head = 1 then { world with serve := some ⟨8, 1⟩ } else world)
  | .relationExists name, world => .ok (decide (name ∈ world.relations), world)
  | .logFailedGate sha, world =>
      .ok ((), { world with failedGates := world.failedGates ++ [sha] })
  | .writeQuarantined sha, world => .ok (true, { world with quarantinedSha := some sha })
  | .writeManaged labels, world => .ok (true, { world with managedLabels := some labels })
  | .writeRunning sha, world => .ok (true, { world with runningSha := some sha })
  | .configured, world | .deployClone, world | .clean, world | .reconcileExists, world
  | .commitExists _, world | .writeManifest, world => .ok (true, world)
  | .syncDeps, world => .ok (true, { world with venv := true })
  | .kill _, world | .alarm, world | .recon, world => .ok ((), world)
  | .plistExists _, _ | .preexisting, _ | .clearQuarantined, _ => .error ()

theorem sampleAnswers_answer {permits : World Nat Nat → Query Nat Nat → Prop}
    {query : Query Nat Nat} {world : World Nat Nat} {answered : Answer query × World Nat Nat}
    (same : sampleAnswers query world = .ok answered)
    : (sampleSurroundings.machine permits).answers query world answered.1 answered.2 := by
  cases query with
  | bootstrap label =>
      rw [sampleAnswers] at same
      split at same <;> cases same
      · rename_i absent installed
        exact ⟨trivial, .inr ⟨rfl, absent, _, installed, rfl⟩⟩
      · exact ⟨trivial, .inl ⟨rfl, rfl⟩⟩
  | reset target =>
      rw [sampleAnswers] at same
      split at same <;> cases same
      · rename_i resolved
        exact ⟨trivial, .inr ⟨_, resolved, rfl⟩⟩
      · exact ⟨trivial, .inl ⟨rfl, rfl⟩⟩
  | kickstart =>
      cases same
      refine ⟨trivial, ?_⟩
      simp only [Surroundings.does]
      split_ifs with first
      · exact .inr ⟨8, [], by rw [first, List.append_nil]⟩
      · exact .inl rfl
  | plistExists | preexisting | clearQuarantined => cases same
  | check =>
      cases same
      exact ⟨id, rfl⟩
  | unchanged =>
      cases same
      exact ⟨fun unequal => absurd unequal Bool.false_ne_true, rfl⟩
  | relationExists =>
      cases same
      exact ⟨of_decide_eq_true, rfl⟩
  | bootout =>
      cases same
      exact ⟨trivial, .inr (.inl rfl)⟩
  | syncDeps =>
      cases same
      exact ⟨trivial, .inr rfl⟩
  | originSha | headSha | migrations | render | migrationHead =>
      cases same
      exact ⟨.inr rfl, rfl⟩
  | sentinelExists | runningSha | quarantinedSha | print | commitExists | descriptors
  | managedLabels | servePid =>
      cases same
      exact ⟨rfl, rfl⟩
  | _ =>
      cases same
      exact ⟨trivial, rfl⟩

/-- A poll of the sample, from a world. -/
def samplePoll (world : World Nat Nat)
    : Except Unit (Except Fault (Ending Nat) × World Nat Nat) :=
  (poll Char.isAlphanum ⟨true, false, false⟩ 3).run.run sampleAnswers world

/-- The world that such a poll leaves. -/
def sampleAfter (world : World Nat Nat) : World Nat Nat :=
  match samplePoll world with
  | .ok last => last.2
  | .error _ => world

theorem samplePoll_executes {permits : World Nat Nat → Query Nat Nat → Prop}
    {world : World Nat Nat} {ending : Except Fault (Ending Nat)}
    (polled : (samplePoll world).map Prod.fst = .ok ending)
    : (poll Char.isAlphanum ⟨true, false, false⟩ 3).run.Executes
        (sampleSurroundings.machine permits) world (some ending) (sampleAfter world) := by
  cases ran : samplePoll world with
  | error fault =>
      rw [ran] at polled
      cases polled
  | ok last =>
      rw [ran] at polled
      cases polled
      have after : sampleAfter world = last.2 := by rw [sampleAfter, ran]
      rw [after]
      exact Executes.of_run sampleAnswers_answer ran

/-- The second version fails, the first one is back, and the plist that only the second one has
brought is still there.
-/
example
    : (samplePoll sampleWorld).map Prod.fst = .ok (.ok (.reverted 2 1))
      ∧ (sampleAfter sampleWorld).installed .fixSweep = some 21 :=
  ⟨rfl, rfl⟩

/-- However many polls have come to their end or were killed, and in the course of the next one, the
version that is quarantined is one that has failed the gate.
-/
theorem quarantined_failed (surroundings : Surroundings Sha Plist) (isWord : Char → Bool)
    (env : Env) (rounds : Nat) {start world : World Sha Plist}
    (initially : ∀ sha, start.quarantinedSha = some sha → sha ∈ start.failedGates)
    (during
      : During (surroundings.audited isWord env) (poll isWord env rounds).run (fun _ => True) start
          world)
    : ∀ sha, world.quarantinedSha = some sha → sha ∈ world.failedGates := by
  refine During.keeps
    (fun world => ∀ sha, world.quarantinedSha = some sha → sha ∈ world.failedGates) during
    (fun state => ⟨_, poll_attains surroundings isWord env rounds state⟩) ?_ ?_ initially
  · intro world later failed moved
    have moves := surroundings.moves moved
    rw [moves.quarantinedSha, moves.failedGates]
    exact failed
  · intro world query answer later failed permitted answered
    have frame := does_frame answered.2
    have same (unwritten : later.quarantinedSha = world.quarantinedSha)
        : ∀ sha, later.quarantinedSha = some sha → sha ∈ later.failedGates := by
      rw [unwritten]
      exact fun sha quarantined => frame.failedGates (failed sha quarantined)
    by_cases records : query.kind = .record
    · cases query with
      | writeQuarantined bad =>
          cases answer with
          | false => exact same (congrArg World.quarantinedSha answered.2)
          | true =>
              intro sha quarantined
              have written : later.quarantinedSha = some bad :=
                congrArg World.quarantinedSha answered.2
              cases written.symm.trans quarantined
              exact frame.failedGates permitted
      | clearQuarantined =>
          cases answer with
          | false => exact same (congrArg World.quarantinedSha answered.2)
          | true =>
              intro sha quarantined
              have cleared : later.quarantinedSha = none :=
                congrArg World.quarantinedSha answered.2
              cases cleared.symm.trans quarantined
      | writeManaged => cases answer <;> cases answered.2 <;> exact same rfl
      | writeRunning => cases answer <;> cases answered.2 <;> exact same rfl
      | _ => cases records
    · exact same (frame.quarantinedSha records)

theorem quarantined_failed_sample
    : (sampleAfter sampleWorld).quarantinedSha = some 2
      ∧ 2 ∈ (sampleAfter sampleWorld).failedGates := by
  have reverted : (samplePoll sampleWorld).map Prod.fst = .ok (.ok (.reverted 2 1)) := rfl
  have initially : ∀ sha, sampleWorld.quarantinedSha = some sha → sha ∈ sampleWorld.failedGates :=
    fun _ quarantined => by cases quarantined
  have quarantined : (sampleAfter sampleWorld).quarantinedSha = some 2 := rfl
  exact ⟨quarantined,
    quarantined_failed sampleSurroundings Char.isAlphanum ⟨true, false, false⟩ 3 initially
      ⟨sampleWorld, _, .start, samplePoll_executes reverted⟩ 2 quarantined⟩

end Poll

-- A version that is quarantined

/-- Nobody pushes, and whoever fetches gets what was pushed. -/
def Surroundings.Unpushed (surroundings : Surroundings Sha Plist) : Prop :=
  ∀ world later,
    surroundings.others world later
    → later.upstream = world.upstream
      ∧ (later.originMain = world.originMain ∨ later.originMain = some world.upstream)

/-- Everything that is deployed or recorded is what it was, and so are the jobs in launchd, except
that one which was booted out before may be gone by now.
-/
structure Held (start world : World Sha Plist) : Prop where
  untouched : Untouched start world
  upstream : world.upstream = start.upstream
  failedGates : world.failedGates = start.failedGates
  venv : world.venv = start.venv
  service
    : ∀ label,
        world.service label = start.service label
        ∨ (∃ plist, start.service label = .leaving plist) ∧ world.service label = .absent

/-- The commands with which Stage 0 looks and fetches. -/
def Query.Looks : Query Sha Plist → Prop
  | .configured | .sentinelExists _ | .deployClone | .fetch | .originSha | .headSha | .runningSha
  | .quarantinedSha => True
  | _ => False

/-- A machine on which one only looks, and where all is as it was. -/
def Surroundings.holding (surroundings : Surroundings Sha Plist) (start : World Sha Plist)
    : Setting (Query Sha Plist) Answer (World Sha Plist) :=
  surroundings.machine (fun world query => query.Looks ∧ Held start world)

section Hold

variable {surroundings : Surroundings Sha Plist} {start world later : World Sha Plist}

omit [DecidableEq Sha] [DecidableEq Plist] in
theorem Held.moved (held : Held start world) (moves : Moves world later)
    (upstream : later.upstream = world.upstream)
    : Held start later where
  untouched :=
    ⟨⟨moves.runningSha.trans held.untouched.books.runningSha,
      moves.quarantinedSha.trans held.untouched.books.quarantinedSha,
      moves.managedLabels.trans held.untouched.books.managedLabels,
      moves.failedGates ▸ held.untouched.books.failedGates⟩,
      moves.head.trans held.untouched.head, moves.installed.trans held.untouched.installed⟩
  upstream := upstream.trans held.upstream
  failedGates := moves.failedGates.trans held.failedGates
  venv := moves.venv.trans held.venv
  service := by
    intro label
    rcases moves.service label with same | ⟨⟨plist, leaves⟩, left⟩
    · exact same ▸ held.service label
    · rcases held.service label with before | ⟨_, gone⟩
      · exact .inr ⟨⟨plist, before ▸ leaves⟩, left⟩
      · cases gone.symm.trans leaves

theorem held_steady (unpushed : surroundings.Unpushed) (start : World Sha Plist)
    : Steady (surroundings.holding start) Query.Looks (Held start) where
  stable := fun held moved => held.moved (surroundings.moves moved) (unpushed _ _ moved).1
  permits := fun looks held => ⟨looks, held⟩
  step := by
    intro query world answer later looks held answered
    cases query with
    | fetch =>
        cases answer with
        | false =>
            cases answered.2
            exact held
        | true =>
            have done : later = { world with originMain := some world.upstream } := answered.2
            subst done
            have books := held.untouched.books
            exact ⟨⟨⟨books.runningSha, books.quarantinedSha, books.managedLabels,
              books.failedGates⟩, held.untouched.head, held.untouched.installed⟩,
              held.upstream, held.failedGates, held.venv, held.service⟩
    | configured | sentinelExists | deployClone | originSha | headSha | runningSha
    | quarantinedSha => exact does_read answered.2 rfl ▸ held
    | _ => exact looks.elim

/-- The origin is known to be what was pushed. -/
theorem fetched_steady (unpushed : surroundings.Unpushed) (start : World Sha Plist)
    : Steady (surroundings.holding start) (fun query => query.Looks ∧ query.kind = .read)
        (fun world => Held start world ∧ world.originMain = some start.upstream) where
  stable := fun {world later} here moved => by
    refine ⟨(held_steady unpushed start).stable here.1 moved, ?_⟩
    rcases (unpushed world later moved).2 with same | fetched
    · exact same.trans here.2
    · exact fetched.trans (congrArg some here.1.upstream)
  permits := fun looks here => ⟨looks.1, here.1⟩
  step := fun looks here answered => does_read answered.2 looks.2 ▸ here

/-- A fetch that succeeds gets what was pushed. -/
theorem fetchTwice_fetches (unpushed : surroundings.Unpushed) (held : Held start world)
    : fetchTwice.Ensures (surroundings.holding start)
        (fun fetched later =>
          Held start later ∧ (fetched = true → later.originMain = some start.upstream))
        world := by
  have looking := held_steady unpushed start
  have fetching : (Query.fetch : Query Sha Plist).Looks := trivial
  have got {fetched : Bool} {before after : World Sha Plist} (held : Held start before)
      (done : Surroundings.does .fetch before fetched after) (went : fetched = true)
      : after.originMain = some start.upstream := by
    subst went
    cases done
    exact congrArg some held.upstream
  have ends {fetched : Bool} {after : World Sha Plist} (held : Held start after)
      (origin : fetched = true → after.originMain = some start.upstream)
      : (pure fetched : Step Sha Plist Bool).Ensures (surroundings.holding start)
          (fun fetched later =>
            Held start later ∧ (fetched = true → later.originMain = some start.upstream))
          after :=
    Ensures.done fun later moved =>
      ⟨looking.stable held moved, fun went =>
        ((fetched_steady unpushed start).stable ⟨held, origin went⟩ moved).2⟩
  refine looking.calls held (fun later here => looking.permits fetching here) ?_
  intro fetched before after here answered
  have kept := looking.step fetching here answered
  cases fetched with
  | true => exact ends kept (got here answered.2)
  | false =>
      refine looking.calls kept (fun later here => looking.permits fetching here) ?_
      intro fetched before after here answered
      exact ends (looking.step fetching here answered) (got here answered.2)

/-- While the quarantined version is what was pushed, Stage 0 only looks. -/
theorem bootstrapFetch_holds (unpushed : surroundings.Unpushed)
    (quarantined : start.quarantinedSha = some start.upstream) (env : Env)
    (held : Held start world)
    : Attains (surroundings.holding start) (bootstrapFetch env)
        (fun ending later =>
          Held start later ∧ (ending = some .disarmed ∨ ending = some .held))
        (fun _ => Held start) world := by
  have looking := held_steady unpushed start
  refine looking.attempts trivial held fun configured after here => ?_
  refine orDie_attains looking here (fun _ here => here) fun _ => ?_
  refine looking.attempts trivial here fun armed after here => ?_
  split_ifs with unarmed
  · exact looking.returns here fun _ here => ⟨here, .inl rfl⟩
  refine looking.attempts trivial here fun isClone after here => ?_
  refine orDie_attains looking here (fun _ here => here) fun _ => ?_
  refine (Attains.lift (fetchTwice_fetches unpushed here)).bind fun fetched later here => ?_
  refine orDie_attains looking here.1 (fun _ here => here) fun went => ?_
  have known := fetched_steady unpushed start
  refine reads_attains known rfl ⟨here.1, here.2 went⟩
    (fun later here => known.permits ⟨trivial, rfl⟩ here) ?_
  intro origin before here (told : origin = none ∨ origin = before.originMain)
  cases origin with
  | none => exact known.dies here fun _ here => here.1
  | some origin =>
      have pushed : some origin = some start.upstream := by
        rcases told with never | told
        · cases never
        · exact told.trans here.2
      refine known.attempts ⟨trivial, rfl⟩ here fun head after here => ?_
      cases head with
      | none => exact known.dies here fun _ here => here.1
      | some head =>
          refine known.attempts ⟨trivial, rfl⟩ here fun running after here => ?_
          refine reads_attains known rfl here
            (fun later here => known.permits ⟨trivial, rfl⟩ here) ?_
          intro quarantine before here (told : quarantine = before.quarantinedSha)
          have same : quarantine = some origin := by
            rw [told, here.1.untouched.books.quarantinedSha, quarantined, pushed]
          rw [if_pos same]
          exact known.returns here fun _ here => ⟨here.1, .inr rfl⟩

/-- After an automatic revert, while the version that failed is still what is pushed: however many
polls have come to their end or were killed, the clone, the plists, the jobs and the records are as
they were, and the next poll gives no commands but those that look and the fetch.
-/
theorem quarantine_holds (unpushed : surroundings.Unpushed)
    (quarantined : start.quarantinedSha = some start.upstream) (isWord : Char → Bool) (env : Env)
    (rounds : Nat)
    (repeats
      : Repeats (surroundings.holding start) (poll isWord env rounds).run (fun _ => True) start
          world)
    : Held start world
      ∧ Attains (surroundings.holding start) (poll isWord env rounds)
          (fun ending later => Held start later ∧ (ending = .disarmed ∨ ending = .held))
          (fun _ => Held start) world := by
  have looking := held_steady unpushed start
  have holds {world : World Sha Plist} (held : Held start world)
      : Attains (surroundings.holding start) (poll isWord env rounds)
          (fun ending later => Held start later ∧ (ending = .disarmed ∨ ending = .held))
          (fun _ => Held start) world := by
    refine (bootstrapFetch_holds unpushed quarantined env held).bind ?_
    rintro ending later ⟨held, rfl | rfl⟩
    · exact looking.returns held fun _ here => ⟨here, .inl rfl⟩
    · exact looking.returns held fun _ here => ⟨here, .inr rfl⟩
  have initially : Held start start :=
    ⟨⟨⟨rfl, rfl, rfl, List.Subset.refl _⟩, rfl, rfl⟩, rfl, rfl, rfl, fun _ => .inl rfl⟩
  have held : Held start world := by
    refine repeats.invariant initially (fun state held => ?_) fun _ _ _ permitted => permitted.2
    refine Ensures.weaken (holds held) fun result later ended => ?_
    cases result with
    | ok ending => exact ended.1
    | error fault => exact ended
  exact ⟨held, holds held⟩

theorem quarantine_holds_sample
    : Held (sampleAfter sampleWorld) (sampleAfter (sampleAfter sampleWorld))
      ∧ Attains (sampleSurroundings.holding (sampleAfter sampleWorld))
          (poll Char.isAlphanum ⟨true, false, false⟩ 3)
          (fun ending later =>
            Held (sampleAfter sampleWorld) later ∧ (ending = .disarmed ∨ ending = .held))
          (fun _ => Held (sampleAfter sampleWorld)) (sampleAfter (sampleAfter sampleWorld)) := by
  have unpushed : sampleSurroundings.Unpushed := by
    rintro world _ ⟨sentinel, rfl⟩
    exact ⟨rfl, .inl rfl⟩
  have held : (samplePoll (sampleAfter sampleWorld)).map Prod.fst = .ok (.ok .held) := rfl
  exact quarantine_holds unpushed rfl Char.isAlphanum ⟨true, false, false⟩ 3
    (.again .start (samplePoll_executes held) fun _ => trivial)

end Hold

end Reconcile
