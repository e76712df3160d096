import Myndaix.Reconcile.Converge

/-! A poll among others: what its commands do to the machine and what may happen between them, and
what is known of a version that is installed and has passed the health gate.
-/

namespace Reconcile

open Interaction
open Interaction.Program hiding ask

variable {Sha Plist : Type}

-- The surroundings of a poll

theorem Service.absent_of_isThere {service : Service Plist} (gone : service.isThere = false)
    : service = .absent := by
  cases service with
  | absent => rfl
  | loaded | leaving => cases gone

namespace World

def setInstalled (world : World Sha Plist) (label : Label) (plist : Option Plist)
    : World Sha Plist :=
  { world with installed := Function.update world.installed label plist }

def setService (world : World Sha Plist) (label : Label) (service : Service Plist)
    : World Sha Plist :=
  { world with service := Function.update world.service label service }

end World

variable [DecidableEq Sha] [DecidableEq Plist]

/-- What happens between two commands: somebody pushes, or fetches, or sets a sentinel, a job that
was booted out goes away, and serve dies or is started from the clone.
-/
structure Moves (world later : World Sha Plist) : Prop where
  head : later.head = world.head
  runningSha : later.runningSha = world.runningSha
  quarantinedSha : later.quarantinedSha = world.quarantinedSha
  managedLabels : later.managedLabels = world.managedLabels
  installed : later.installed = world.installed
  venv : later.venv = world.venv
  failedGates : later.failedGates = world.failedGates
  service
    : ∀ label,
        later.service label = world.service label
        ∨ (∃ plist, world.service label = .leaving plist) ∧ later.service label = .absent
  serve
    : later.serve = world.serve ∨ later.serve = none
      ∨ ∃ pid, later.serve = some ⟨pid, world.head⟩
  relations : world.relations ⊆ later.relations

/-- The repository behind a machine, and what others do there. -/
structure Surroundings (Sha Plist : Type) where
  tree : Sha → Version Plist
  /-- Whether the clone has a commit. -/
  commits : Sha → Bool
  /-- The migrations of a version that differ from those of an earlier one. -/
  migrations : Sha → Sha → List Migration.SqlFile
  others : World Sha Plist → World Sha Plist → Prop
  others_refl : ∀ world, others world world
  others_trans
    : ∀ {first second third}, others first second → others second third → others first third
  moves : ∀ {world later}, others world later → Moves world later

def Target.resolve (world : World Sha Plist) : Target Sha → Option Sha
  | .originMain => world.originMain
  | .sha commit => some commit

namespace Surroundings

variable (surroundings : Surroundings Sha Plist)

/-- What an answer says. Nothing is known of the working tree, of the workers, and of the commands
whose success shows in what they do.
-/
def tells : (query : Query Sha Plist) → World Sha Plist → Answer query → Prop
  | .sentinelExists sentinel, world, answer => answer = world.sentinel sentinel
  | .originSha, world, answer => answer = none ∨ answer = world.originMain
  | .headSha, world, answer => answer = none ∨ answer = some world.head
  | .runningSha, world, answer => answer = world.runningSha
  | .quarantinedSha, world, answer => answer = world.quarantinedSha
  | .check healthOnly, world, answer =>
      answer = true → checks surroundings.tree healthOnly world = true
  | .print label, world, answer => answer = (world.service label).isThere
  | .plistExists label, world, answer => answer = (world.installed label).isSome
  | .commitExists sha, _, answer => answer = surroundings.commits sha
  | .migrations since, world, answer =>
      answer = none ∨ answer = some (surroundings.migrations since world.head)
  | .descriptors, world, answer => answer = (surroundings.tree world.head).descriptors
  | .render job, _, answer => answer = none ∨ answer = job.plist
  | .unchanged label plist, world, answer => answer = true → world.installed label = some plist
  | .managedLabels, world, answer => answer = world.managedLabels
  | .migrationHead, world, answer =>
      answer = none ∨ answer = (surroundings.tree world.head).migrationHead
  | .servePid, world, answer => answer = world.serve.map Process.pid
  | .relationExists name, world, answer => answer = true → name ∈ world.relations
  | _, _, _ => True

/-- What a command does, with the answer that it gives. A restart of serve and the end of a job that
is booted out may come later.
-/
def does : (query : Query Sha Plist) → World Sha Plist → Answer query → World Sha Plist → Prop
  | .fetch, world, answer, later =>
      later = if answer = true then { world with originMain := some world.upstream } else world
  | .bootout label, world, _, later =>
      later = world ∨ later = world.setService label .absent
      ∨ ∃ plist,
          world.service label = .loaded plist ∧ later = world.setService label (.leaving plist)
  | .bootstrap label, world, answer, later =>
      answer = false ∧ later = world
      ∨ answer = true ∧ world.service label = .absent
        ∧ ∃ plist,
            world.installed label = some plist
            ∧ later = world.setService label (.loaded plist)
  | .reset target, world, answer, later =>
      answer = false ∧ later = world
      ∨ ∃ sha, target.resolve world = some sha ∧ later = { world with head := sha }
  | .syncDeps, world, answer, later =>
      answer = false ∧ later = world ∨ later = { world with venv := true }
  | .kickstart, world, _, later =>
      later = world
      ∨ ∃ pid relations,
          later
            = {
              world with
              serve := some ⟨pid, world.head⟩,
              relations := world.relations ++ relations
            }
  | .install label plist, world, answer, later =>
      later = if answer = true then world.setInstalled label (some plist) else world
  | .remove label, world, answer, later =>
      later = if answer = true then world.setInstalled label none else world
  | .logFailedGate sha, world, _, later =>
      later = { world with failedGates := world.failedGates ++ [sha] }
  | .writeQuarantined sha, world, answer, later =>
      later = if answer = true then { world with quarantinedSha := some sha } else world
  | .clearQuarantined, world, answer, later =>
      later = if answer = true then { world with quarantinedSha := none } else world
  | .writeManaged labels, world, answer, later =>
      later = if answer = true then { world with managedLabels := some labels } else world
  | .writeRunning sha, world, answer, later =>
      later = if answer = true then { world with runningSha := some sha } else world
  | _, world, _, later => later = world

/-- The machine, where only such commands are given as are permitted. -/
def machine (permits : World Sha Plist → Query Sha Plist → Prop)
    : Setting (Query Sha Plist) Answer (World Sha Plist) where
  interferes := surroundings.others
  answers := fun query world answer later =>
    surroundings.tells query world answer ∧ does query world answer later
  permits := permits
  interferes_refl := surroundings.others_refl
  interferes_trans := surroundings.others_trans

end Surroundings

-- What the commands leave alone

inductive Query.Kind where
  | read
  | fetch
  | bootout
  | bootstrap
  | restart
  | reset
  | deps
  | plist
  | log
  | record
deriving DecidableEq, Repr

/-- What a query changes, if anything. -/
def Query.kind : Query Sha Plist → Query.Kind
  | .fetch => .fetch
  | .bootout _ => .bootout
  | .bootstrap _ => .bootstrap
  | .kickstart => .restart
  | .reset _ => .reset
  | .syncDeps => .deps
  | .install .. | .remove _ => .plist
  | .logFailedGate _ => .log
  | .writeQuarantined _ | .clearQuarantined | .writeManaged _ | .writeRunning _ => .record
  | _ => .read

section Frames

variable {query : Query Sha Plist} {world later : World Sha Plist} {answer : Answer query}

omit [DecidableEq Sha] [DecidableEq Plist] in
theorem does_read (done : Surroundings.does query world answer later) (reads : query.kind = .read)
    : later = world := by
  cases query <;> first | exact done | cases reads

/-- What a command of a kind leaves as it is. -/
structure Frame (kind : Query.Kind) (world later : World Sha Plist) : Prop where
  head : kind ≠ .reset → later.head = world.head
  runningSha : kind ≠ .record → later.runningSha = world.runningSha
  quarantinedSha : kind ≠ .record → later.quarantinedSha = world.quarantinedSha
  managedLabels : kind ≠ .record → later.managedLabels = world.managedLabels
  installed : kind ≠ .plist → later.installed = world.installed
  service : kind ≠ .bootout → kind ≠ .bootstrap → later.service = world.service
  failedGates : world.failedGates ⊆ later.failedGates
  venv : world.venv = true → later.venv = true
  serve
    : later.serve = world.serve ∨ later.serve = none
      ∨ ∃ pid, later.serve = some ⟨pid, world.head⟩
  relations : world.relations ⊆ later.relations
  upstream : later.upstream = world.upstream

omit [DecidableEq Sha] [DecidableEq Plist] in
theorem Frame.refl (kind : Query.Kind) (world : World Sha Plist) : Frame kind world world := by
  constructor <;> simp

omit [DecidableEq Sha] [DecidableEq Plist] in
theorem does_frame (done : Surroundings.does query world answer later)
    : Frame query.kind world later := by
  by_cases reads : query.kind = .read
  · exact does_read done reads ▸ Frame.refl query.kind world
  cases query with
  | bootout label =>
      obtain rfl | rfl | ⟨plist, _, rfl⟩ := done <;> constructor <;>
        simp [Query.kind, World.setService]
  | bootstrap label =>
      obtain ⟨_, rfl⟩ | ⟨_, _, plist, _, rfl⟩ := done <;> constructor <;>
        simp [Query.kind, World.setService]
  | reset target =>
      obtain ⟨_, rfl⟩ | ⟨sha, _, rfl⟩ := done <;> constructor <;> simp [Query.kind]
  | kickstart => obtain rfl | ⟨pid, relations, rfl⟩ := done <;> constructor <;> simp
  | syncDeps => obtain ⟨_, rfl⟩ | rfl := done <;> constructor <;> simp
  | logFailedGate sha =>
      subst done
      constructor <;> simp
  | fetch | install | remove | writeQuarantined | clearQuarantined | writeManaged | writeRunning =>
      rw [Surroundings.does] at done
      split_ifs at done <;> subst done <;> constructor <;> simp [Query.kind, World.setInstalled]
  | _ => exact absurd rfl reads

end Frames

-- Where the commands that count may be given

/-- The jobs that a run over the descriptors installs. A job that needs a sentinel may be left out.
-/
inductive Selects : List (Option (Job Plist)) → List (Job Plist) → Prop
  | nil : Selects [] []
  | elsewhere {job : Job Plist} {rest : List (Option (Job Plist))} {jobs : List (Job Plist)}
    (applies : job.applies = false) (others : Selects rest jobs)
    : Selects (some job :: rest) jobs
  | unarmed {job : Job Plist} {rest : List (Option (Job Plist))} {jobs : List (Job Plist)}
    (applies : job.applies = true) (needs : job.requiresSentinel.isSome)
    (others : Selects rest jobs)
    : Selects (some job :: rest) jobs
  | installed {job : Job Plist} {rest : List (Option (Job Plist))} {jobs : List (Job Plist)}
    (applies : job.applies = true) (renders : job.plist.isSome) (others : Selects rest jobs)
    : Selects (some job :: rest) (job :: jobs)

/-- The labels of the ticks, which the gate starts afresh. -/
def Label.IsTick (label : Label) : Prop :=
  label ≠ .runtime ∧ label ≠ .reconcile

/-- Launchd runs a job from the plist that is installed. -/
def Runs (world : World Sha Plist) (label : Label) : Prop :=
  ∃ plist, world.installed label = some plist ∧ world.service label = .loaded plist

namespace Surroundings

variable (surroundings : Surroundings Sha Plist)

/-- A version has passed the gate with these jobs: it is checked out and serve runs from it, with
its migrations; the plist of each of the labels is one of its own, and each tick runs from that.
-/
structure Healthy (sha : Sha) (jobs : List (Job Plist)) (world : World Sha Plist) : Prop where
  head : world.head = sha
  selects : Selects (surroundings.tree sha).descriptors jobs
  serve : ∀ process, world.serve = some process → process.code = sha
  migrated
    : ∃ name, (surroundings.tree sha).migrationHead = some name ∧ name ∈ world.relations
  plists
    : ∀ label ∈ jobs.map Job.label,
        ∃ job ∈ jobs, job.label = label ∧ world.installed label = job.plist
  ticks : ∀ label ∈ jobs.map Job.label, label.IsTick → Runs world label
  venv : world.venv = true

/-- The migrations that came since a version are additive, or the operator has allowed them. -/
def Cleared (isWord : Char → Bool) (env : Env) (since sha : Sha) : Prop :=
  env.allowContraction = true ∨ surroundings.migrations since sha = []
  ∨ ∃ existing,
      Migration.lintDeploy isWord env.allowRoutine existing (surroundings.migrations since sha)
        = .additive

/-- The commands that count: the clone is reset while no tick runs, and back only over migrations
that are additive; a version is quarantined that has failed; and the receipt is for a version that
has passed, with the labels that it has brought.
-/
def permitted (isWord : Char → Bool) (env : Env) (world : World Sha Plist)
    : Query Sha Plist → Prop
  | .reset .originMain => ∀ label ∈ MUTATING_TICKS, world.service label = .absent
  | .reset (.sha sha) =>
      (∀ label ∈ MUTATING_TICKS, world.service label = .absent)
      ∧ surroundings.Cleared isWord env sha world.head
  | .writeQuarantined sha => sha ∈ world.failedGates
  | .writeRunning sha =>
      ∃ jobs, surroundings.Healthy sha jobs world
        ∧ world.managedLabels = some (jobs.map Job.label)
  | _ => True

/-- A machine on which the commands that count are given only where they may be. -/
abbrev audited (isWord : Char → Bool) (env : Env)
    : Setting (Query Sha Plist) Answer (World Sha Plist) :=
  surroundings.machine (surroundings.permitted isWord env)

end Surroundings

-- Assertions that survive

/-- Neither the clone is reset nor a record written. -/
def Query.Calm (query : Query Sha Plist) : Prop :=
  query.kind ≠ .reset ∧ query.kind ≠ .record

/-- Nor is a plist changed. -/
def Query.Tidy (query : Query Sha Plist) : Prop :=
  query.Calm ∧ query.kind ≠ .plist

/-- Nor is a job booted out, except with this label. -/
def Query.Spares (label : Label) (query : Query Sha Plist) : Prop :=
  query.Tidy ∧ (query.kind = .bootout → query = .bootout label)

omit [DecidableEq Sha] [DecidableEq Plist] in
theorem tidy_of_reads {query : Query Sha Plist} (reads : query.kind = .read) : query.Tidy := by
  simp [Query.Tidy, Query.Calm, reads]

section Steady

variable {surroundings : Surroundings Sha Plist} {isWord : Char → Bool} {env : Env}
  {quiet : Query Sha Plist → Prop} {holds : World Sha Plist → Prop}

omit [DecidableEq Sha] [DecidableEq Plist] in
theorem permitted_calm {query : Query Sha Plist} (calm : query.Calm) (world : World Sha Plist)
    : surroundings.permitted isWord env world query := by
  cases query with
  | reset => exact absurd rfl calm.1
  | writeQuarantined | writeRunning => exact absurd rfl calm.2
  | _ => trivial

/-- An assertion survives if nothing that happens between the commands touches it, and no command
either of a kind that is passed over.
-/
theorem steady_of (calm : ∀ {query}, quiet query → query.Calm)
    (moved : ∀ {world later}, Moves world later → holds world → holds later)
    (framed
      : ∀ {query : Query Sha Plist} {world later},
          quiet query → Frame query.kind world later → holds world → holds later)
    : Steady (surroundings.audited isWord env) quiet holds where
  stable := fun here other => moved (surroundings.moves other) here
  permits := fun isQuiet _ => permitted_calm (calm isQuiet) _
  step := fun isQuiet here answered => framed isQuiet (does_frame answered.2) here

section Reading

variable {permits : World Sha Plist → Query Sha Plist → Prop} {query : Query Sha Plist}
  {Result : Type} {post : Result → World Sha Plist → Prop}
  {raises : Fault → World Sha Plist → Prop} {world : World Sha Plist}

/-- A look at the machine, before the rest of a part: it is as the answer says. -/
theorem reads_ensures {next : Answer query → Step Sha Plist Result}
    (steady : Steady (surroundings.machine permits) quiet holds) (reads : query.kind = .read)
    (start : holds world) (permitted : ∀ later, holds later → permits later query)
    (continues
      : ∀ answer later,
          holds later → surroundings.tells query later answer
          → (next answer).Ensures (surroundings.machine permits) post later)
    : (ask query >>= next).Ensures (surroundings.machine permits) post world := by
  refine steady.calls start permitted fun answer before after here answered => ?_
  cases does_read answered.2 reads
  exact continues answer before here answered.1

theorem reads_attains {next : Answer query → Run Sha Plist Result}
    (steady : Steady (surroundings.machine permits) quiet holds) (reads : query.kind = .read)
    (start : holds world) (permitted : ∀ later, holds later → permits later query)
    (continues
      : ∀ answer later,
          holds later → surroundings.tells query later answer
          → Attains (surroundings.machine permits) (next answer) post raises later)
    : Attains (surroundings.machine permits) (call query >>= next) post raises world :=
  reads_ensures steady reads start permitted continues

end Reading

/-- The records of a poll are those that it has begun with. -/
structure Books (start world : World Sha Plist) : Prop where
  runningSha : world.runningSha = start.runningSha
  quarantinedSha : world.quarantinedSha = start.quarantinedSha
  managedLabels : world.managedLabels = start.managedLabels
  failedGates : start.failedGates ⊆ world.failedGates

omit [DecidableEq Sha] [DecidableEq Plist] in
theorem Books.framed {start world later : World Sha Plist} {kind : Query.Kind}
    (books : Books start world) (frame : Frame kind world later) (quiet : kind ≠ .record)
    : Books start later where
  runningSha := (frame.runningSha quiet).trans books.runningSha
  quarantinedSha := (frame.quarantinedSha quiet).trans books.quarantinedSha
  managedLabels := (frame.managedLabels quiet).trans books.managedLabels
  failedGates := List.Subset.trans books.failedGates frame.failedGates

theorem books_steady (start : World Sha Plist)
    : Steady (surroundings.audited isWord env) Query.Calm (Books start) := by
  refine steady_of id (fun moved books => ?_) fun calm frame books => books.framed frame calm.2
  exact ⟨moved.runningSha.trans books.runningSha, moved.quarantinedSha.trans books.quarantinedSha,
    moved.managedLabels.trans books.managedLabels, moved.failedGates ▸ books.failedGates⟩

theorem head_steady (sha : Sha)
    : Steady (surroundings.audited isWord env) Query.Calm (fun world => world.head = sha) :=
  steady_of id (fun moved same => moved.head.trans same) fun calm frame same =>
    (frame.head calm.1).trans same

theorem failed_steady (sha : Sha)
    : Steady (surroundings.audited isWord env) Query.Calm (fun world => sha ∈ world.failedGates) :=
  steady_of id (fun moved failed => moved.failedGates ▸ failed) fun _ frame failed =>
    frame.failedGates failed

theorem venv_steady
    : Steady (surroundings.audited isWord env) Query.Calm (fun world => world.venv = true) :=
  steady_of id (fun moved there => moved.venv.trans there) fun _ frame there => frame.venv there

theorem relations_steady (name : String)
    : Steady (surroundings.audited isWord env) Query.Calm (fun world => name ∈ world.relations) :=
  steady_of id (fun moved there => moved.relations there) fun _ frame there =>
    frame.relations there

theorem installed_steady (installed : Label → Option Plist)
    : Steady (surroundings.audited isWord env) Query.Tidy
      (fun world => world.installed = installed) :=
  steady_of And.left (fun moved same => moved.installed.trans same) fun tidy frame same =>
    (frame.installed tidy.2).trans same

/-- With the plists that stand there. -/
theorem tracking (steady : Steady (surroundings.audited isWord env) Query.Calm holds)
    (installed : Label → Option Plist)
    : Steady (surroundings.audited isWord env) Query.Tidy
        (fun world => holds world ∧ world.installed = installed) :=
  (steady.fewer And.left).and (installed_steady installed)

/-- Every process of serve is the old one, or has started from the version that is checked out. -/
structure Restarted (sha : Sha) (oldPid : Option Nat) (world : World Sha Plist) : Prop where
  head : world.head = sha
  serve : ∀ process, world.serve = some process → process.code = sha ∨ some process.pid = oldPid

omit [DecidableEq Sha] [DecidableEq Plist] in
/-- Whatever serve has been started from since is what is checked out. -/
theorem Restarted.later {sha : Sha} {oldPid : Option Nat} {world later : World Sha Plist}
    (restarted : Restarted sha oldPid world) (head : later.head = world.head)
    (serve
      : later.serve = world.serve ∨ later.serve = none
        ∨ ∃ pid, later.serve = some ⟨pid, world.head⟩)
    : Restarted sha oldPid later := by
  refine ⟨head.trans restarted.head, fun process serves => ?_⟩
  rcases serve with same | gone | ⟨pid, started⟩
  · exact restarted.serve process (same ▸ serves)
  · cases gone.symm.trans serves
  · cases started.symm.trans serves
    exact .inl restarted.head

theorem restarted_steady (sha : Sha) (oldPid : Option Nat)
    : Steady (surroundings.audited isWord env) Query.Calm (Restarted sha oldPid) :=
  steady_of id (fun moved restarted => restarted.later moved.head moved.serve)
    fun calm frame restarted => restarted.later (frame.head calm.1) frame.serve

/-- A job that is gone is not started by itself. -/
theorem absent_steady (label : Label)
    : Steady (surroundings.audited isWord env) (fun query => query.kind = .read)
        (fun world => world.service label = .absent) := by
  refine steady_of (fun reads => (tidy_of_reads reads).1) (fun moved gone => ?_)
    fun reads frame gone => ?_
  · rcases moved.service label with same | ⟨_, left⟩
    · exact same.trans gone
    · exact left
  · rw [frame.service (by simp [reads]) (by simp [reads])]
    exact gone

theorem gone_steady (labels : List Label)
    : Steady (surroundings.audited isWord env) (fun query => query.kind = .read)
        (fun world => ∀ label ∈ labels, world.service label = .absent) :=
  .all (fun reads => permitted_calm (tidy_of_reads reads).1 _) fun label =>
    .all (fun reads => permitted_calm (tidy_of_reads reads).1 _) fun _ => absent_steady label

/-- Launchd has loaded what is installed for a label. -/
def Loaded (installed : Label → Option Plist) (label : Label) (world : World Sha Plist) : Prop :=
  ∃ plist, installed label = some plist ∧ world.service label = .loaded plist

theorem loaded_lasts (installed : Label → Option Plist) (label : Label)
    : Steady (surroundings.audited isWord env) (fun query => query.kind = .read)
        (Loaded installed label) := by
  refine steady_of (fun reads => (tidy_of_reads reads).1) (fun moved => ?_) fun reads frame => ?_
  · rintro ⟨plist, stands, loaded⟩
    rcases moved.service label with same | ⟨⟨_, leaves⟩, _⟩
    · exact ⟨plist, stands, same.trans loaded⟩
    · cases loaded.symm.trans leaves
  · rintro ⟨plist, stands, loaded⟩
    exact ⟨plist, stands, frame.service (by simp [reads]) (by simp [reads]) ▸ loaded⟩

theorem ticks_lasting (installed : Label → Option Plist) (labels : List Label)
    : Steady (surroundings.audited isWord env) (fun query => query.kind = .read)
        (fun world => ∀ label ∈ labels, label.IsTick → Loaded installed label world) := by
  have permitted {world : World Sha Plist} {query : Query Sha Plist} (reads : query.kind = .read)
      : (surroundings.audited isWord env).permits world query :=
    permitted_calm (tidy_of_reads reads).1 world
  exact .all permitted fun label => .all permitted fun _ => .all permitted fun _ =>
    loaded_lasts installed label

/-- A job that is loaded stays so while no other one is booted out. -/
theorem loaded_steady {label other : Label} (differs : label ≠ other)
    (installed : Label → Option Plist)
    : Steady (surroundings.audited isWord env) (Query.Spares other) (Loaded installed label) where
  stable := (loaded_lasts installed label).stable
  permits := fun spares _ => permitted_calm spares.1.1 _
  step := fun {query world answer later} spares ⟨plist, stands, loaded⟩ answered => by
    refine ⟨plist, stands, ?_⟩
    by_cases bootout : query.kind = .bootout
    · cases spares.2 bootout
      obtain rfl | rfl | ⟨_, _, rfl⟩ := answered.2
      · exact loaded
      · exact (Function.update_of_ne differs _ _).trans loaded
      · exact (Function.update_of_ne differs _ _).trans loaded
    · by_cases bootstrap : query.kind = .bootstrap
      · cases query with
        | bootstrap started =>
            obtain ⟨_, rfl⟩ | ⟨_, absent, _, _, rfl⟩ := answered.2
            · exact loaded
            · have apart : label ≠ started := by
                rintro rfl
                cases absent.symm.trans loaded
              exact (Function.update_of_ne apart _ _).trans loaded
        | _ => cases bootstrap
      · rw [(does_frame answered.2).service bootout bootstrap]
        exact loaded

end Steady

-- launchd

section Launchd

variable {surroundings : Surroundings Sha Plist} {isWord : Char → Bool} {env : Env}
  {quiet : Query Sha Plist → Prop} {holds : World Sha Plist → Prop} {world : World Sha Plist}

omit [DecidableEq Sha] [DecidableEq Plist] in
/-- `command || die`, before the rest of a part. -/
theorem orDie_attains {setting : Setting (Query Sha Plist) Answer (World Sha Plist)}
    {Result : Type} {succeeded : Bool} {fault : Fault} {rest : Unit → Run Sha Plist Result}
    {post : Result → World Sha Plist → Prop} {raises : Fault → World Sha Plist → Prop}
    (steady : Steady setting quiet holds) (start : holds world)
    (died : ∀ later, holds later → raises fault later)
    (continues : succeeded = true → Attains setting (rest ()) post raises world)
    : Attains setting (orDie succeeded fault >>= rest) post raises world := by
  cases succeeded with
  | false => exact steady.dies start died
  | true => exact continues rfl

theorem laWaitGone_ensures (steady : Steady (surroundings.audited isWord env) quiet holds)
    (reads : ∀ {query}, query.kind = .read → quiet query) (label : Label) (rounds : Nat)
    (start : holds world)
    : (laWaitGone label rounds).Ensures (surroundings.audited isWord env)
        (fun gone later => holds later ∧ (gone = true → later.service label = .absent)) world := by
  induction rounds generalizing world with
  | zero => exact steady.ends start fun later here => ⟨here, (absurd · Bool.false_ne_true)⟩
  | succ rounds ih =>
      refine reads_ensures steady rfl start (fun _ _ => trivial) ?_
      intro answer before here found
      cases answer with
      | true =>
          refine steady.asks (reads rfl) here fun late after here => ?_
          cases late with
          | true => exact steady.ends here fun later here => ⟨here, (absurd · Bool.false_ne_true)⟩
          | false => exact ih here
      | false =>
          have absent := Service.absent_of_isThere found.symm
          refine ((steady.fewer reads).and (absent_steady label)).ends ⟨here, absent⟩ ?_
          exact fun later both => ⟨both.1, fun _ => both.2⟩

theorem laEnsureGone_ensures (steady : Steady (surroundings.audited isWord env) quiet holds)
    (reads : ∀ {query}, query.kind = .read → quiet query) (label : Label) (rounds : Nat)
    (start : holds world)
    : (laEnsureGone label rounds).Ensures (surroundings.audited isWord env)
        (fun gone later => holds later ∧ (gone = true → later.service label = .absent)) world := by
  refine (laWaitGone_ensures steady reads label rounds start).bind fun gone later here => ?_
  cases gone with
  | true =>
      refine ((steady.fewer reads).and (absent_steady label)).ends ⟨here.1, here.2 rfl⟩ ?_
      exact fun later both => ⟨both.1, fun _ => both.2⟩
  | false =>
      refine steady.asks (reads rfl) here.1 fun _ after here => ?_
      exact laWaitGone_ensures steady reads label rounds here

theorem bootoutAll_ensures (steady : Steady (surroundings.audited isWord env) Query.Tidy holds)
    (labels : List Label) (start : holds world)
    : (bootoutAll labels).Ensures (surroundings.audited isWord env) (fun _ => holds) world := by
  induction labels generalizing world with
  | nil => exact steady.ends start fun _ here => here
  | cons label rest ih =>
      exact steady.asks ⟨⟨nofun, nofun⟩, nofun⟩ start fun _ _ here => ih here

theorem ensureAllGone_attains
    (steady : Steady (surroundings.audited isWord env) (fun query => query.kind = .read) holds)
    (rounds : Nat) (labels : List Label) (start : holds world)
    : Attains (surroundings.audited isWord env) (ensureAllGone rounds labels)
        (fun _ later => holds later ∧ ∀ label ∈ labels, later.service label = .absent)
        (fun _ => holds) world := by
  induction labels generalizing holds world with
  | nil => exact steady.returns start fun _ here => ⟨here, nofun⟩
  | cons label rest ih =>
      refine (Attains.lift (laEnsureGone_ensures steady id label rounds start)).bind ?_
      intro gone later here
      refine orDie_attains steady here.1 (fun _ here => here) fun went => ?_
      refine (ih (steady.and (absent_steady label)) ⟨here.1, here.2 went⟩).weaken ?_ ?_
      · intro _ later both
        exact ⟨both.1.1, List.forall_mem_cons.mpr ⟨both.1.2, both.2⟩⟩
      · exact fun _ _ both => both.1

/-- Where the clone may be reset, the ticks are gone. -/
theorem quiesce_attains (steady : Steady (surroundings.audited isWord env) Query.Tidy holds)
    (rounds : Nat) (start : holds world)
    : Attains (surroundings.audited isWord env) (quiesce rounds)
        (fun _ later => holds later ∧ ∀ label ∈ MUTATING_TICKS, later.service label = .absent)
        (fun _ => holds) world := by
  have reading := steady.fewer tidy_of_reads
  refine (Attains.lift (bootoutAll_ensures steady MUTATING_TICKS start)).bind ?_
  intro _ later here
  refine (ensureAllGone_attains reading rounds MUTATING_TICKS here).bind ?_
  intro _ later here
  have both := reading.and (gone_steady MUTATING_TICKS)
  refine both.attempts rfl here fun working after here => ?_
  cases working with
  | true => exact both.dies here fun _ here => here.1
  | false => exact both.returns here fun _ here => here

/-- The traps change no more than the jobs. -/
theorem restoreTicks_ensures (steady : Steady (surroundings.audited isWord env) Query.Tidy holds)
    (labels : List Label) (start : holds world)
    : (restoreTicks labels).Ensures (surroundings.audited isWord env) (fun _ => holds) world := by
  induction labels generalizing world with
  | nil => exact steady.ends start fun _ here => here
  | cons label rest ih =>
      refine steady.asks (tidy_of_reads rfl) start fun there after here => ?_
      cases there with
      | true => exact steady.asks ⟨⟨nofun, nofun⟩, nofun⟩ here fun _ _ here => ih here
      | false => exact ih here

theorem guarded_attains {Result : Type} {part : Run Sha Plist Result}
    {post : Result → World Sha Plist → Prop}
    (steady : Steady (surroundings.audited isWord env) Query.Tidy holds)
    (attains : Attains (surroundings.audited isWord env) part post (fun _ => holds) world)
    : Attains (surroundings.audited isWord env) (guarded part) post (fun _ => holds) world := by
  refine attains.rescue fun fault later here => ?_
  refine (Attains.lift (restoreTicks_ensures steady MUTATING_TICKS here)).bind ?_
  exact fun _ later here => steady.dies here fun _ here => here

end Launchd

-- Installing

/-- The plists after those of the jobs were written, in their order. -/
def overlay (jobs : List (Job Plist)) (installed : Label → Option Plist) : Label → Option Plist :=
  jobs.foldl (fun installed job => Function.update installed job.label job.plist) installed

variable {label : Label}

omit [DecidableEq Plist] in
/-- Other plists are left as they are, by induction on the jobs. -/
theorem overlay_other (jobs : List (Job Plist)) (installed : Label → Option Plist)
    (other : label ∉ jobs.map Job.label)
    : overlay jobs installed label = installed label := by
  induction jobs generalizing installed with
  | nil => rfl
  | cons job rest ih =>
      rw [List.map_cons, List.mem_cons, not_or] at other
      exact (ih _ other.2).trans (Function.update_of_ne other.1 _ _)

/-- The plists after those of the managed labels that are no role's were removed. -/
def pruned (managed roleLabels : List Label) (installed : Label → Option Plist)
    : Label → Option Plist :=
  fun label =>
    if label ∈ managed ∧ label ∉ roleLabels ∧ label ≠ .runtime ∧ label ≠ .reconcile then none
    else installed label

omit [DecidableEq Plist] in
@[simp] theorem pruned_nil (roleLabels : List Label) (installed : Label → Option Plist)
    : pruned [] roleLabels installed = installed := by
  funext label
  exact if_neg fun gone => List.not_mem_nil gone.1

omit [DecidableEq Plist] in
/-- A label that is kept does not count among the managed ones. -/
theorem pruned_kept {managed roleLabels : List Label}
    (kept : label = .runtime ∨ label ∈ roleLabels ∨ label = .reconcile)
    (installed : Label → Option Plist)
    : pruned (label :: managed) roleLabels installed = pruned managed roleLabels installed := by
  funext other
  by_cases same : other = label
  · subst same
    grind [pruned]
  · simp [pruned, same]

omit [DecidableEq Plist] in
theorem pruned_removed {managed roleLabels : List Label}
    (gone : ¬(label = .runtime ∨ label ∈ roleLabels ∨ label = .reconcile))
    (installed : Label → Option Plist)
    : pruned (label :: managed) roleLabels installed
      = pruned managed roleLabels (Function.update installed label none) := by
  funext other
  by_cases same : other = label
  · subst same
    grind [pruned]
  · simp [pruned, same]

section Installing

variable {surroundings : Surroundings Sha Plist} {isWord : Char → Bool} {env : Env}
  {holds : World Sha Plist → Prop} {world : World Sha Plist} {installed : Label → Option Plist}

theorem installPlist_attains (steady : Steady (surroundings.audited isWord env) Query.Calm holds)
    (label : Label) (plist : Plist) (start : holds world) (stands : world.installed = installed)
    : Attains (surroundings.audited isWord env) (installPlist label plist)
        (fun _ later =>
          holds later ∧ later.installed = Function.update installed label (some plist))
        (fun _ => holds) world := by
  have tracked := tracking steady installed
  refine reads_attains tracked rfl ⟨start, stands⟩ (fun _ _ => trivial) ?_
  intro unchanged before here same
  cases unchanged with
  | true =>
      have already : Function.update installed label (some plist) = installed :=
        Function.update_eq_self_iff.mpr (here.2 ▸ same rfl).symm
      exact tracked.returns here fun later here => ⟨here.1, here.2.trans already.symm⟩
  | false =>
      refine tracked.tries here (fun _ _ => trivial) ?_
      intro succeeded before after here answered
      have calm : (Query.install label plist : Query Sha Plist).Calm := ⟨nofun, nofun⟩
      have kept := steady.step calm here.1 answered
      cases succeeded with
      | false => exact steady.dies kept fun _ here => here
      | true =>
          have wrote : after.installed = Function.update installed label (some plist) := by
            rw [answered.2, if_pos rfl, World.setInstalled, here.2]
          have next := tracking steady (Function.update installed label (some plist))
          exact next.returns ⟨kept, wrote⟩ fun _ here => here

theorem jobArmed_ensures (steady : Steady (surroundings.audited isWord env) Query.Tidy holds)
    (job : Job Plist) (start : holds world)
    : (jobArmed job).Ensures (surroundings.audited isWord env)
        (fun armed later => (armed = false → job.requiresSentinel.isSome) ∧ holds later) world := by
  unfold jobArmed
  cases needs : job.requiresSentinel with
  | none => exact steady.ends start fun later here => ⟨nofun, here⟩
  | some sentinel =>
      refine Ensures.call fun before moved => ⟨trivial, fun armed after answered => ?_⟩
      have here := steady.step (tidy_of_reads rfl) (steady.stable start moved) answered
      exact steady.ends here fun later here => ⟨fun _ => rfl, here⟩

/-- The loop over the descriptors installs the jobs that it selects, in their order. By induction on
the descriptors.
-/
theorem installJobs_attains (steady : Steady (surroundings.audited isWord env) Query.Calm holds)
    (descriptors : List (Option (Job Plist))) (roleLabels : List Label) (start : holds world)
    (stands : world.installed = installed)
    : Attains (surroundings.audited isWord env) (installJobs descriptors roleLabels)
        (fun labels later =>
          holds later
          ∧ ∃ jobs,
              Selects descriptors jobs ∧ labels = roleLabels ++ jobs.map Job.label
              ∧ later.installed = overlay jobs installed)
        (fun _ => holds) world := by
  induction descriptors generalizing roleLabels installed world with
  | nil =>
      have tracked := tracking steady installed
      exact tracked.returns ⟨start, stands⟩ fun later here =>
        ⟨here.1, [], .nil, (List.append_nil _).symm, here.2⟩
  | cons descriptor rest ih =>
      have tracked := tracking steady installed
      cases descriptor with
      | none => exact steady.dies start fun _ here => here
      | some job =>
          unfold installJobs
          cases applies : job.applies with
          | false =>
              refine (ih roleLabels start stands).weaken ?_ fun _ _ here => here
              rintro labels later ⟨here, jobs, selects, same, stands⟩
              exact ⟨here, jobs, .elsewhere applies selects, same, stands⟩
          | true =>
              refine (Attains.lift (jobArmed_ensures tracked job ⟨start, stands⟩)).bind ?_
              rintro armed later ⟨needs, start, stands⟩
              cases armed with
              | false =>
                  refine (ih roleLabels start stands).weaken ?_ fun _ _ here => here
                  rintro labels later ⟨here, jobs, selects, same, stands⟩
                  exact ⟨here, jobs, .unarmed applies (needs rfl) selects, same, stands⟩
              | true =>
                  refine reads_attains tracked rfl ⟨start, stands⟩ (fun _ _ => trivial) ?_
                  intro rendered before here told
                  cases rendered with
                  | none => exact steady.dies here.1 fun _ here => here
                  | some plist =>
                      have same : job.plist = some plist := by
                        rcases told with never | same
                        · cases never
                        · exact same.symm
                      refine (installPlist_attains steady job.label plist here.1 here.2).bind ?_
                      rintro _ later ⟨start, stands⟩
                      refine (ih (roleLabels ++ [job.label]) start stands).weaken ?_
                        fun _ _ here => here
                      rintro labels later ⟨here, jobs, selects, all, stands⟩
                      have renders : job.plist.isSome := by
                        rw [same]
                        rfl
                      refine ⟨here, job :: jobs, .installed applies renders selects, ?_, ?_⟩
                      · rw [all, List.append_assoc]
                        rfl
                      · rw [stands, overlay, overlay, List.foldl_cons, same]

/-- The loop over the managed labels removes the plists of those that are no role's. By induction on
the labels.
-/
theorem pruneOrphans_attains (steady : Steady (surroundings.audited isWord env) Query.Calm holds)
    (roleLabels managed : List Label) (start : holds world) (stands : world.installed = installed)
    : Attains (surroundings.audited isWord env) (pruneOrphans roleLabels managed)
        (fun _ later => holds later ∧ later.installed = pruned managed roleLabels installed)
        (fun _ => holds) world := by
  induction managed generalizing installed world with
  | nil =>
      have tracked := tracking steady installed
      rw [pruned_nil]
      exact tracked.returns ⟨start, stands⟩ fun later here => here
  | cons label rest ih =>
      unfold pruneOrphans
      split_ifs with kept
      · rw [pruned_kept kept]
        exact ih start stands
      · have tracked := tracking steady installed
        rw [pruned_removed kept]
        refine tracked.attempts ⟨⟨nofun, nofun⟩, nofun⟩ ⟨start, stands⟩ fun _ after here => ?_
        refine tracked.tries here (fun _ _ => trivial) ?_
        intro succeeded before after here answered
        have calm : (Query.remove label : Query Sha Plist).Calm := ⟨nofun, nofun⟩
        have start := steady.step calm here.1 answered
        refine orDie_attains steady start (fun _ here => here) fun went => ih start ?_
        rw [answered.2, if_pos went, World.setInstalled, here.2]

/-- What `install_artifacts` leaves: the jobs of the version that is checked out, over what was
there before, without what was managed and is no role's any more.
-/
theorem installArtifacts_attains
    (steady : Steady (surroundings.audited isWord env) Query.Calm holds) {sha : Sha}
    {managed : Option (List Label)} (head : ∀ world, holds world → world.head = sha)
    (manages : ∀ world, holds world → world.managedLabels = managed) (start : holds world)
    (stands : world.installed = installed)
    : Attains (surroundings.audited isWord env) installArtifacts
        (fun labels later =>
          holds later ∧ later.venv = true
          ∧ ∃ jobs,
              Selects (surroundings.tree sha).descriptors jobs ∧ labels = jobs.map Job.label
              ∧ later.installed = pruned (managed.getD []) labels (overlay jobs installed))
        (fun _ => holds) world := by
  have tracked := tracking steady installed
  refine tracked.attempts (tidy_of_reads rfl) ⟨start, stands⟩ fun status after here => ?_
  cases status with
  | failed => exact steady.dies here.1 fun _ here => here
  | dirty => exact steady.dies here.1 fun _ here => here
  | clean =>
      refine tracked.tries here (fun _ _ => trivial) ?_
      intro succeeded before after here answered
      have calm : (Query.syncDeps : Query Sha Plist).Tidy := ⟨⟨nofun, nofun⟩, nofun⟩
      have kept := tracked.step calm here answered
      refine orDie_attains steady kept.1 (fun _ here => here) fun went => ?_
      have venv : after.venv = true := by
        rcases answered.2 with ⟨failed, _⟩ | rfl
        · cases went.symm.trans failed
        · rfl
      have equipped := steady.and venv_steady
      have together := tracking equipped installed
      refine reads_attains together rfl ⟨⟨kept.1, venv⟩, kept.2⟩ (fun _ _ => trivial) ?_
      intro descriptors before here told
      have listed : descriptors = (surroundings.tree sha).descriptors :=
        told.trans (by rw [head before here.1.1])
      refine ((installJobs_attains equipped descriptors [] here.1 here.2).weaken
        (fun _ _ here => here) (fun _ _ here => here.1)).bind ?_
      rintro labels later ⟨here, jobs, selects, rfl, stands⟩
      have overlaid := tracking equipped (overlay jobs installed)
      refine reads_attains overlaid rfl ⟨here, stands⟩ (fun _ _ => trivial) ?_
      intro answer before here told
      have read : answer = managed := told.trans (manages before here.1.1)
      subst read
      refine ((pruneOrphans_attains equipped _ _ here.1 here.2).weaken
        (fun _ _ here => here) (fun _ _ here => here.1)).bind ?_
      rintro _ later ⟨here, stands⟩
      have last := tracking equipped
        (pruned (answer.getD []) (jobs.map Job.label) (overlay jobs installed))
      exact last.returns ⟨here, stands⟩ fun later here =>
        ⟨here.1.1, here.1.2, jobs, listed ▸ selects, rfl, here.2⟩

end Installing

-- The manifest

/-- A version has a job with this label for the machine. -/
def Named (descriptors : List (Option (Job Plist))) (label : Label) : Prop :=
  ∃ job, some job ∈ descriptors ∧ job.applies = true ∧ job.label = label

/-- Nothing is left of the managed labels that the version does not name. -/
def Vacated (descriptors : List (Option (Job Plist))) (managed : List Label)
    (world : World Sha Plist)
    : Prop :=
  ∀ label ∈ managed,
    label ≠ .runtime → ¬Named descriptors label
    → world.installed label = none ∧ world.service label = .absent

section Manifest

variable {descriptors : List (Option (Job Plist))} {manifest built : Manifest Sha Plist}
  {world : World Sha Plist}

omit [DecidableEq Plist] in
theorem setEntry_lookup (label : Label) (plist : Plist) (entries : List (Label × Plist))
    (other : Label)
    : (setEntry label plist entries).lookup other
      = if other = label then some plist else entries.lookup other := by
  induction entries with
  | nil => grind [setEntry]
  | cons entry rest ih => grind [setEntry]

omit [DecidableEq Sha] [DecidableEq Plist] in
/-- What the loop expects or finds disarmed is named by a descriptor. By induction on these. -/
theorem expect_named (expected : expect world descriptors manifest = some built) (label : Label)
    (known : (built.plistsExpected.lookup label).isSome ∨ label ∈ built.disarmed)
    : (manifest.plistsExpected.lookup label).isSome ∨ label ∈ manifest.disarmed
      ∨ Named descriptors label := by
  induction descriptors generalizing manifest with
  | nil =>
      cases expected
      exact known.imp_right .inl
  | cons descriptor rest ih =>
      have later {job : Job Plist} (named : Named rest label) : Named (some job :: rest) label := by
        obtain ⟨found, among, facts⟩ := named
        exact ⟨found, List.mem_cons_of_mem _ among, facts⟩
      cases descriptor with
      | none => cases expected
      | some job =>
          unfold expect at expected
          have here (applies : job.applies = true) (same : label = job.label)
              : Named (some job :: rest) label :=
            ⟨job, List.mem_cons_self, applies, same.symm⟩
          cases applies : job.applies with
          | false =>
              rw [applies, Bool.not_false, if_pos rfl] at expected
              exact (ih expected).imp_right (Or.imp_right later)
          | true =>
              rw [applies, Bool.not_true, if_neg Bool.false_ne_true] at expected
              by_cases unarmed : job.unarmed world.sentinel = true
              · rw [if_pos unarmed] at expected
                rcases ih expected with known | among | named
                · exact .inl known
                · rcases List.mem_append.mp among with among | same
                  · exact .inr (.inl among)
                  · exact .inr (.inr (here applies (List.mem_singleton.mp same)))
                · exact .inr (.inr (later named))
              · rw [if_neg unarmed] at expected
                cases rendered : job.plist with
                | none => simp [rendered] at expected
                | some plist =>
                    rw [rendered] at expected
                    rcases ih expected with known | among | named
                    · rw [setEntry_lookup] at known
                      split_ifs at known with same
                      · exact .inr (.inr (here applies same))
                      · exact .inl known
                    · exact .inr (.inl among)
                    · exact .inr (.inr (later named))

/-- Where the manifest has no drift, no managed label is left that the version does not name. -/
theorem checks_vacated {tree : Sha → Version Plist} {healthOnly : Bool}
    (checked : checks tree healthOnly world = true)
    : Vacated (tree world.head).descriptors (world.managedLabels.getD []) world := by
  intro label among other unnamed
  rw [checks, decide_eq_true_iff, Option.map_eq_some_iff] at checked
  obtain ⟨built, builds, clean⟩ := checked
  rw [build, Option.map_eq_some_iff] at builds
  obtain ⟨manifest, expected, rfl⟩ := builds
  have unexpected := mt (expect_named expected label) (by simpa using unnamed)
  rw [not_or] at unexpected
  simp only [driftList, List.append_eq_nil_iff, List.map_eq_nil_iff, List.filterMap_eq_nil_iff,
    List.mem_eraseDups] at clean
  have spared := clean.1.2 label among
  have unlisted
      : ((manifest.plistsExpected.lookup label).isSome || label == .runtime
          || manifest.disarmed.contains label) = false := by
    rw [Bool.or_eq_false_iff, Bool.or_eq_false_iff]
    exact ⟨⟨Bool.eq_false_iff.mpr unexpected.1, beq_eq_false_iff_ne.mpr other⟩,
      by simpa using unexpected.2⟩
  dsimp only [orphan] at spared
  rw [unlisted, if_neg Bool.false_ne_true] at spared
  split_ifs at spared with left
  rw [Bool.or_eq_true, not_or, Bool.not_eq_true, Bool.not_eq_true] at left
  exact ⟨Option.isSome_eq_false_iff.mp left.1 |> Option.isNone_iff_eq_none.mp,
    Service.absent_of_isThere left.2⟩

end Manifest

-- The health gate

section Gate

variable {surroundings : Surroundings Sha Plist} {isWord : Char → Bool} {env : Env}
  {quiet : Query Sha Plist → Prop} {holds : World Sha Plist → Prop} {world : World Sha Plist}
  {installed : Label → Option Plist} {sha : Sha} {managed : Option (List Label)}

/-- The wait ends well only with a process that has started from the version that is checked out,
and with its last migration. By induction on the rounds.
-/
theorem awaitServe_ensures
    (steady : Steady (surroundings.audited isWord env) (fun query => query.kind = .read) holds)
    (oldPid : Option Nat) (headObject : String) (rounds : Nat) (prevPid : Option Nat)
    (start : holds world) (restarted : Restarted sha oldPid world)
    : (awaitServe oldPid headObject rounds prevPid).Ensures (surroundings.audited isWord env)
        (fun healthy later =>
          holds later
          ∧ (healthy = true → Restarted sha none later ∧ headObject ∈ later.relations))
        world := by
  have reading {query : Query Sha Plist} (reads : query.kind = .read) := (tidy_of_reads reads).1
  induction rounds generalizing prevPid world with
  | zero => exact steady.ends start fun later here => ⟨here, (absurd · Bool.false_ne_true)⟩
  | succ rounds ih =>
      have waiting := steady.and ((restarted_steady sha oldPid).fewer reading)
      refine reads_ensures waiting rfl ⟨start, restarted⟩ (fun _ _ => trivial) ?_
      intro pid before here read
      by_cases fresh : pid.isSome ∧ pid ≠ oldPid
      · have renewed : Restarted sha none before := by
          refine ⟨here.2.head, fun process serves => .inl ?_⟩
          rw [Surroundings.tells, serves, Option.map_some] at read
          exact (here.2.serve process serves).resolve_right fun same => fresh.2 (read.trans same)
        have started := waiting.and ((restarted_steady sha none).fewer reading)
        refine reads_ensures started rfl ⟨here, renewed⟩ (fun _ _ => trivial) ?_
        intro present before here told
        split_ifs with done
        · refine (started.and ((relations_steady headObject).fewer reading)).ends
            ⟨here, told done.2.2.2⟩ ?_
          exact fun later here => ⟨here.1.1.1, fun _ => ⟨here.1.2, here.2⟩⟩
        · refine waiting.asks rfl here.1 fun late after here => ?_
          cases late with
          | true =>
              exact waiting.ends here fun later here => ⟨here.1, (absurd · Bool.false_ne_true)⟩
          | false => exact ih pid here.1 here.2
      · refine waiting.asks rfl here fun present after here => ?_
        rw [if_neg fun done => fresh ⟨done.1, done.2.1⟩]
        refine waiting.asks rfl here fun late after here => ?_
        cases late with
        | true => exact waiting.ends here fun later here => ⟨here.1, (absurd · Bool.false_ne_true)⟩
        | false => exact ih pid here.1 here.2

theorem laBootstrapTwice_ensures (steady : Steady (surroundings.audited isWord env) quiet holds)
    (bootstraps : quiet (.bootstrap label))
    (stands : ∀ world, holds world → world.installed = installed) (start : holds world)
    : (laBootstrapTwice label).Ensures (surroundings.audited isWord env)
        (fun started later => holds later ∧ (started = true → Loaded installed label later))
        world := by
  have once {started : Bool} {before after : World Sha Plist} (here : holds before)
      (done : Surroundings.does (.bootstrap label) before started after)
      : started = true → Loaded installed label after := by
    rintro rfl
    obtain ⟨never, _⟩ | ⟨_, _, plist, there, rfl⟩ := done
    · cases never
    · exact ⟨plist, stands before here ▸ there, Function.update_self ..⟩
  have ends {started : Bool} {after : World Sha Plist} (here : holds after)
      (loaded : started = true → Loaded installed label after)
      : (pure started : Step Sha Plist Bool).Ensures (surroundings.audited isWord env)
          (fun started later => holds later ∧ (started = true → Loaded installed label later))
          after :=
    Ensures.done fun later moved =>
      ⟨steady.stable here moved, fun same =>
        (loaded_lasts installed label).stable (loaded same) moved⟩
  refine steady.calls start (fun later here => steady.permits bootstraps here) ?_
  intro started before after here answered
  have kept := steady.step bootstraps here answered
  cases started with
  | true => exact ends kept (once here answered.2)
  | false =>
      refine steady.calls kept (fun later here => steady.permits bootstraps here) ?_
      intro started before after here answered
      exact ends (steady.step bootstraps here answered) (once here answered.2)

/-- A tick that is started runs from what is installed. -/
theorem startTick_ensures
    (steady : Steady (surroundings.audited isWord env) (Query.Spares label) holds)
    (stands : ∀ world, holds world → world.installed = installed) (rounds : Nat)
    (start : holds world)
    : (startTick env rounds label).Ensures (surroundings.audited isWord env)
        (fun started later =>
          holds later ∧ (started = true → label.IsTick → Loaded installed label later))
        world := by
  have reads {query : Query Sha Plist} (reads : query.kind = .read) : query.Spares label :=
    ⟨tidy_of_reads reads, fun bootout => by cases reads.symm.trans bootout⟩
  have bootstraps : (Query.bootstrap label : Query Sha Plist).Spares label :=
    ⟨⟨⟨nofun, nofun⟩, nofun⟩, nofun⟩
  have bootouts : (Query.bootout label : Query Sha Plist).Spares label :=
    ⟨⟨⟨nofun, nofun⟩, nofun⟩, fun _ => rfl⟩
  have twice {world : World Sha Plist} (start : holds world) :=
    (laBootstrapTwice_ensures steady bootstraps stands start).weaken fun _ _ both =>
      And.imp_right (fun loaded same (_ : label.IsTick) => loaded same) both
  unfold startTick
  split_ifs with serve self polled
  · exact steady.ends start fun later here => ⟨here, fun _ tick => absurd serve tick.1⟩
  · refine steady.asks (reads rfl) start fun there after here => ?_
    cases there with
    | true => exact steady.ends here fun later here => ⟨here, fun _ tick => absurd self tick.2⟩
    | false => exact twice here
  · refine steady.asks bootouts start fun _ after here => ?_
    refine (laEnsureGone_ensures steady reads label rounds here).bind fun gone later here => ?_
    cases gone with
    | true => exact twice here.1
    | false => exact steady.ends here.1 fun later here => ⟨here, (absurd · Bool.false_ne_true)⟩
  · refine steady.asks bootouts start fun _ after here => ?_
    refine (laWaitGone_ensures steady reads label rounds here).bind fun gone later here => ?_
    exact twice here.1

/-- Every tick runs from what is installed, if all are started. By induction on the labels. -/
theorem startTicks_ensures (steady : Steady (surroundings.audited isWord env) Query.Tidy holds)
    (stands : ∀ world, holds world → world.installed = installed) (rounds : Nat)
    (labels started : List Label) (start : holds world)
    (running : ∀ label ∈ started, label.IsTick → Loaded installed label world)
    : (startTicks env rounds labels).Ensures (surroundings.audited isWord env)
        (fun all later =>
          holds later
          ∧ (all = true
            → ∀ label, label ∈ started ∨ label ∈ labels → label.IsTick
              → Loaded installed label later))
        world := by
  induction labels generalizing started world with
  | nil =>
      have lasting := (steady.fewer tidy_of_reads).and (ticks_lasting installed started)
      refine lasting.ends ⟨start, running⟩ fun later here => ⟨here.1, fun _ label among => ?_⟩
      exact here.2 label (among.resolve_right (List.not_mem_nil))
  | cons label rest ih =>
      have others
          : Steady (surroundings.audited isWord env) (Query.Spares label)
              (fun world =>
                ∀ other, other ∈ started → other ≠ label → other.IsTick
                  → Loaded installed other world) := by
        have permitted {world : World Sha Plist} {query : Query Sha Plist}
            (spares : query.Spares label)
            : (surroundings.audited isWord env).permits world query :=
          permitted_calm spares.1.1 world
        exact .all permitted fun other => .all permitted fun _ => .all permitted fun differs =>
          .all permitted fun _ => loaded_steady differs installed
      refine (startTick_ensures ((steady.fewer And.left).and others)
        (fun world here => stands world here.1) rounds
        ⟨start, fun other among _ => running other among⟩).bind ?_
      rintro fresh later ⟨⟨here, others⟩, loaded⟩
      cases fresh with
      | false => exact steady.ends here fun later here => ⟨here, (absurd · Bool.false_ne_true)⟩
      | true =>
          have running
              : ∀ other ∈ label :: started, other.IsTick → Loaded installed other later := by
            intro other among tick
            by_cases same : other = label
            · exact same ▸ loaded rfl (same ▸ tick)
            · exact others other ((List.mem_cons.mp among).resolve_left same) same tick
          refine (ih (label :: started) here running).weaken fun all later both => ?_
          refine both.imp_right fun all same other among => all same other ?_
          grind

theorem vacated_lasts (descriptors : List (Option (Job Plist))) (labels : List Label)
    : Steady (surroundings.audited isWord env) (fun query => query.kind = .read)
        (Vacated descriptors labels) := by
  refine steady_of (fun reads => (tidy_of_reads reads).1) (fun moved vacated => ?_)
    fun reads frame vacated => ?_
  · intro label among other unnamed
    obtain ⟨gone, absent⟩ := vacated label among other unnamed
    refine ⟨moved.installed ▸ gone, ?_⟩
    rcases moved.service label with same | ⟨_, left⟩
    · exact same.trans absent
    · exact left
  · intro label among other unnamed
    obtain ⟨gone, absent⟩ := vacated label among other unnamed
    rw [frame.installed (by simp [reads]), frame.service (by simp [reads]) (by simp [reads])]
    exact ⟨gone, absent⟩

/-- What a version that passes the gate shows. -/
structure Passes (surroundings : Surroundings Sha Plist) (sha : Sha)
    (installed : Label → Option Plist) (managed : Option (List Label)) (roleLabels : List Label)
    (world : World Sha Plist)
    : Prop where
  serve : Restarted sha none world
  migrated
    : ∃ name, (surroundings.tree sha).migrationHead = some name ∧ name ∈ world.relations
  ticks : ∀ label ∈ roleLabels, label.IsTick → Loaded installed label world
  vacated : Vacated (surroundings.tree sha).descriptors (managed.getD []) world

theorem verify_ensures
    (steady : Steady (surroundings.audited isWord env) (fun query => query.kind = .read) holds)
    (head : ∀ world, holds world → world.head = sha)
    (manages : ∀ world, holds world → world.managedLabels = managed) (start : holds world)
    : verify.Ensures (surroundings.audited isWord env)
        (fun verified later =>
          holds later
          ∧ (verified = true
            → Vacated (surroundings.tree sha).descriptors (managed.getD []) later))
        world := by
  refine reads_ensures steady rfl start (fun _ _ => trivial) ?_
  intro verified before here told
  cases verified with
  | false =>
      refine steady.asks rfl here fun status after here => ?_
      cases status <;> exact steady.ends here fun later here =>
        ⟨here, (absurd · Bool.false_ne_true)⟩
  | true =>
      have vacated := checks_vacated (told rfl)
      rw [head before here, manages before here] at vacated
      have lasting := steady.and
        (vacated_lasts (surroundings.tree sha).descriptors (managed.getD []))
      refine lasting.asks rfl ⟨here, vacated⟩ fun status after here => ?_
      cases status <;> exact lasting.ends here fun later here => ⟨here.1, fun _ => here.2⟩

/-- What passes the gate is the version that is checked out. -/
theorem healthGate_ensures (steady : Steady (surroundings.audited isWord env) Query.Tidy holds)
    (head : ∀ world, holds world → world.head = sha)
    (stands : ∀ world, holds world → world.installed = installed)
    (manages : ∀ world, holds world → world.managedLabels = managed) (rounds : Nat)
    (roleLabels : List Label) (start : holds world)
    : (healthGate env rounds roleLabels).Ensures (surroundings.audited isWord env)
        (fun healthy later =>
          holds later
          ∧ (healthy = true → Passes surroundings sha installed managed roleLabels later))
        world := by
  have fails {world : World Sha Plist} (start : holds world)
      : (pure false : Step Sha Plist Bool).Ensures (surroundings.audited isWord env)
          (fun healthy later =>
            holds later
            ∧ (healthy = true → Passes surroundings sha installed managed roleLabels later))
          world :=
    steady.ends start fun later here => ⟨here, (absurd · Bool.false_ne_true)⟩
  have reading := steady.fewer tidy_of_reads
  refine reads_ensures steady rfl start (fun _ _ => trivial) ?_
  intro migrationHead before here read
  cases migrationHead with
  | none => exact fails here
  | some headObject =>
      have object : (surroundings.tree sha).migrationHead = some headObject := by
        rcases read with never | read
        · cases never
        · rw [read, head before here]
      refine steady.asks (tidy_of_reads rfl) here fun there after here => ?_
      cases there with
      | false => exact fails here
      | true =>
          refine reads_ensures steady rfl here (fun _ _ => trivial) ?_
          intro oldPid before here told
          have old : Restarted sha oldPid before := by
            refine ⟨head before here, fun process serves => .inr ?_⟩
            rw [told, serves]
            rfl
          have serving := steady.and ((restarted_steady sha oldPid).fewer And.left)
          refine serving.asks ⟨⟨nofun, nofun⟩, nofun⟩ ⟨here, old⟩ fun kicked after here => ?_
          cases kicked with
          | false => exact fails here.1
          | true =>
              refine (awaitServe_ensures reading oldPid headObject rounds none here.1
                here.2).bind ?_
              rintro restarted later ⟨here, facts⟩
              cases restarted with
              | false => exact fails here
              | true =>
                  have migrated := (steady.and ((restarted_steady sha none).fewer And.left)).and
                    ((relations_steady headObject).fewer And.left)
                  refine (startTicks_ensures migrated (fun world here => stands world here.1.1)
                    rounds roleLabels [] ⟨⟨here, (facts rfl).1⟩, (facts rfl).2⟩ nofun).bind ?_
                  rintro started later ⟨here, ticks⟩
                  cases started with
                  | false => exact fails here.1.1
                  | true =>
                      have settled := (migrated.fewer tidy_of_reads).and
                        (ticks_lasting installed roleLabels)
                      refine (verify_ensures settled (fun world here => head world here.1.1.1)
                        (fun world here => manages world here.1.1.1)
                        ⟨here, fun label among => ticks rfl label (.inr among)⟩).weaken ?_
                      rintro verified later ⟨⟨⟨⟨here, serve⟩, related⟩, ticks⟩, vacated⟩
                      exact ⟨here, fun same =>
                        ⟨serve, ⟨headObject, object, related⟩, ticks, vacated same⟩⟩

end Gate

end Reconcile
