import Myndaix.Interaction.Steady
import Myndaix.Migration.Scanner

/-! One poll of the pull reconciler on a factory machine: Stage 0 fetches and resets the deploy
clone, then the fresh code installs its jobs, restarts serve and checks its health, goes back to the
last good version where that fails, and writes the receipt.
-/

namespace Reconcile

open Interaction

-- What a version brings

/-- The labels `ai.myndaix.*` that the scripts name, and all others. -/
inductive Label where
  | runtime
  | reconcile
  | controller
  | automerge
  | fixSweep
  | proposer
  | other (name : String)
deriving DecidableEq, Repr

/-- The ticks that run from the clone and change something; also `QUIESCE_LABELS`. -/
def MUTATING_TICKS : List Label :=
  [.controller, .automerge, .fixSweep, .proposer]

inductive Sentinel where
  | reconcileArmed
  | other (name : String)
deriving DecidableEq, Repr

def RECONCILE_SENTINEL : Sentinel :=
  .reconcileArmed

inductive Role where
  | factory
  | lab
  | other (name : String)
deriving DecidableEq, Repr

/-- A job descriptor, with what it is rendered to under the configuration, if it can be. -/
structure Job (Plist : Type) where
  label : Label
  roles : List Role
  requiresSentinel : Option Sentinel
  plist : Option Plist
deriving DecidableEq, Repr

/-- What the scripts read in a checkout. -/
structure Version (Plist : Type) where
  /-- `substrate/plists/*.json`; nothing stands for a descriptor that `_load_descriptor` refuses. -/
  descriptors : List (Option (Job Plist))
  /-- `migration_head.txt`, where it is a plain identifier. -/
  migrationHead : Option String
deriving DecidableEq, Repr

variable {Sha Plist : Type}

/-- `role_check` for the role of the machine. -/
def Job.applies (job : Job Plist) : Bool :=
  job.roles.contains .factory

-- The machine

/-- A job in launchd. After a bootout its process may still be there for a while. -/
inductive Service (Plist : Type) where
  | absent
  | loaded (plist : Plist)
  | leaving (plist : Plist)
deriving DecidableEq, Repr

/-- `launchctl print` finds it. -/
def Service.isThere : Service Plist → Bool
  | .absent => false
  | .loaded _ | .leaving _ => true

/-- A process of serve, and the version that it has started from. -/
structure Process (Sha : Type) where
  pid : Nat
  code : Sha
deriving DecidableEq, Repr

structure World (Sha Plist : Type) where
  /-- The branch `main` where it is pushed to. -/
  upstream : Sha
  /-- `refs/remotes/origin/main` of the deploy clone. -/
  originMain : Option Sha
  head : Sha
  runningSha : Option Sha
  quarantinedSha : Option Sha
  managedLabels : Option (List Label)
  /-- The plists in `LaunchAgents`. -/
  installed : Label → Option Plist
  service : Label → Service Plist
  serve : Option (Process Sha)
  /-- The relations of the ledger's schema. -/
  relations : List String
  sentinel : Sentinel → Bool
  venv : Bool
  /-- The versions for which a log line says that the health gate failed. -/
  failedGates : List Sha

-- The manifest

structure Orphan where
  label : Label
  installed : Bool
  loaded : Bool
deriving DecidableEq, Repr

structure Manifest (Sha Plist : Type) where
  deploySha : Option Sha
  originSha : Option Sha
  plistsExpected : List (Label × Plist)
  plistsInstalled : Label → Option Plist
  labelsLoaded : Label → Bool
  disarmed : List Label
  disarmedLoaded : List Label
  orphans : List Orphan
  venvOk : Bool

inductive Drift where
  | unresolvableSha
  | behindOrigin
  | disarmedLoaded (label : Label)
  | plist (label : Label)
  | notLoaded (label : Label)
  | orphaned (orphan : Orphan)
  | venv
deriving DecidableEq, Repr

/-- An entry of a dictionary, in the place that its key has or at the end. -/
def setEntry (label : Label) (plist : Plist) : List (Label × Plist) → List (Label × Plist)
  | [] => [(label, plist)]
  | entry :: rest =>
      if entry.1 = label then (label, plist) :: rest else entry :: setEntry label plist rest

/-- The sentinel of a job is missing. -/
def Job.unarmed (sentinel : Sentinel → Bool) (job : Job Plist) : Bool :=
  job.requiresSentinel.any (fun name => !sentinel name)

/-- The loop of `build` over the descriptors, which a broken one ends. -/
def expect (world : World Sha Plist)
    : List (Option (Job Plist)) → Manifest Sha Plist → Option (Manifest Sha Plist)
  | [], manifest => some manifest
  | none :: _, _ => none
  | some job :: rest, manifest =>
      if !job.applies then expect world rest manifest
      else if job.unarmed world.sentinel then
        expect world rest
          {
            manifest with
            disarmed := manifest.disarmed ++ [job.label],
            disarmedLoaded :=
              if (world.service job.label).isThere then manifest.disarmedLoaded ++ [job.label]
              else manifest.disarmedLoaded
          }
      else
        match job.plist with
        | none => none
        | some plist =>
            expect world rest
              {
                manifest with
                plistsExpected := setEntry job.label plist manifest.plistsExpected
              }

/-- A label that was managed and is not expected any more, if something of it is still there. -/
def orphan (world : World Sha Plist) (manifest : Manifest Sha Plist) (label : Label)
    : Option Orphan :=
  let installed := (world.installed label).isSome
  let loaded := (world.service label).isThere
  if (manifest.plistsExpected.lookup label).isSome || label == .runtime
      || manifest.disarmed.contains label then none
  else if installed || loaded then some { label, installed, loaded }
  else none

/-- `manifest.py`'s `build`. -/
def build (tree : Sha → Version Plist) (world : World Sha Plist) : Option (Manifest Sha Plist) :=
  let manifest : Manifest Sha Plist :=
    {
      deploySha := some world.head,
      originSha := world.originMain,
      plistsExpected := [],
      plistsInstalled := world.installed,
      labelsLoaded := fun label => (world.service label).isThere,
      disarmed := [],
      disarmedLoaded := [],
      orphans := [],
      venvOk := world.venv
    }
  (expect world (tree world.head).descriptors manifest).map (fun manifest =>
    {
      manifest with
      orphans := (world.managedLabels.getD []).eraseDups.filterMap (orphan world manifest)
    })

section Manifest

variable [DecidableEq Sha] [DecidableEq Plist]

/-- Whether the clone is at the head of the origin. -/
def shaDrift (manifest : Manifest Sha Plist) : List Drift :=
  match manifest.deploySha, manifest.originSha with
  | some deploy, some origin => if deploy = origin then [] else [Drift.behindOrigin]
  | _, _ => [Drift.unresolvableSha]

def plistDrift (manifest : Manifest Sha Plist) (expected : Label × Plist) : List Drift :=
  (if manifest.plistsInstalled expected.1 = some expected.2 then []
    else [Drift.plist expected.1])
  ++ (if manifest.labelsLoaded expected.1 then [] else [Drift.notLoaded expected.1])

def driftList (healthOnly : Bool) (manifest : Manifest Sha Plist) : List Drift :=
  (if healthOnly then []
    else
      shaDrift manifest ++ manifest.disarmedLoaded.map (fun label => Drift.disarmedLoaded label))
  ++ manifest.plistsExpected.flatMap (plistDrift manifest)
  ++ manifest.orphans.map (fun orphan => Drift.orphaned orphan)
  ++ (if manifest.venvOk then [] else [Drift.venv])

/-- `manifest.py check` exits with 0. -/
def checks (tree : Sha → Version Plist) (healthOnly : Bool) (world : World Sha Plist) : Bool :=
  ((build tree world).map (driftList healthOnly)) = some []

end Manifest

-- What the scripts ask

/-- What `git status --porcelain` says of the clone. -/
inductive Status where
  | failed
  | clean
  | dirty
deriving DecidableEq, Repr

/-- Where `git reset --hard` goes to. -/
inductive Target (Sha : Type) where
  | originMain
  | sha (sha : Sha)
deriving DecidableEq, Repr

inductive Query (Sha Plist : Type) where
  /-- The configuration is there and valid, and for the factory. -/
  | configured
  /-- The deploy clone is what the configuration says. -/
  | deployClone
  | sentinelExists (sentinel : Sentinel)
  | fetch
  | originSha
  | headSha
  | runningSha
  | quarantinedSha
  | status
  | check (healthOnly : Bool)
  | print (label : Label)
  | bootout (label : Label)
  | kill (label : Label)
  | bootstrap (label : Label)
  | plistExists (label : Label)
  /-- The deadline of a waiting loop has passed. -/
  | deadline
  /-- `pgrep` finds a worker that runs from the clone. -/
  | workers
  | reset (target : Target Sha)
  | clean
  | reconcileExists
  | commitExists (sha : Sha)
  /-- The migrations that differ from those of an earlier version. -/
  | migrations (since : Sha)
  | preexisting
  | syncDeps
  | descriptors
  | render (job : Job Plist)
  | unchanged (label : Label) (plist : Plist)
  | install (label : Label) (plist : Plist)
  | remove (label : Label)
  | managedLabels
  | migrationHead
  | servePid
  | kickstart
  | relationExists (name : String)
  | logFailedGate (sha : Sha)
  | writeQuarantined (sha : Sha)
  | clearQuarantined
  | writeManaged (labels : List Label)
  | writeManifest
  | writeRunning (sha : Sha)
  | alarm
  | recon
deriving DecidableEq

/-- A command answers whether it succeeded, or what it printed if it did. -/
abbrev Answer : Query Sha Plist → Type
  | .originSha | .headSha | .runningSha | .quarantinedSha => Option Sha
  | .status => Status
  | .bootout _ | .kill _ | .logFailedGate _ | .alarm | .recon => Unit
  | .migrations _ => Option (List Migration.SqlFile)
  | .preexisting => Option (Finset Inbox.Str)
  | .descriptors => List (Option (Job Plist))
  | .render _ => Option Plist
  | .managedLabels => Option (List Label)
  | .migrationHead => Option String
  | .servePid => Option Nat
  | _ => Bool

/-- The messages of `die`. -/
inductive Fault where
  | noConfig
  | noDeployClone
  | fetchFailed
  | noOriginSha
  | noHeadSha
  | survived (label : Label)
  | workerRunning
  | resetFailed
  | noReconcile
  | noMigrationDelta
  | nonAdditive
  | statusFailed
  | notClean
  | depsFailed
  | brokenDescriptor
  | renderFailed (label : Label)
  | installFailed (label : Label)
  | pruneFailed (label : Label)
  | twoFault
  | unrecoverable
  | quarantineNotSet
  | managedNotWritten
  | manifestNotWritten
  | runningNotWritten
  | disarmFailed
deriving DecidableEq, Repr

/-- A part that goes on in any case. -/
abbrev Step (Sha Plist Result : Type) : Type :=
  Program (Query Sha Plist) Answer Result

/-- A part that can die. -/
abbrev Run (Sha Plist Result : Type) : Type :=
  ExceptT Fault (Step Sha Plist) Result

abbrev ask (query : Query Sha Plist) : Step Sha Plist (Answer query) :=
  Program.ask query

/-- A part that goes on in any case, as a part of one that can die. -/
def go {Result : Type} (step : Step Sha Plist Result) : Run Sha Plist Result :=
  ExceptT.lift step

abbrev call (query : Query Sha Plist) : Run Sha Plist (Answer query) :=
  go (ask query)

def die {Result : Type} (fault : Fault) : Run Sha Plist Result :=
  throw fault

/-- `command || die`. -/
def orDie (succeeded : Bool) (fault : Fault) : Run Sha Plist Unit :=
  if succeeded then pure () else die fault

/-- What the environment of a run says. -/
structure Env where
  /-- `RECONCILE_POLL`: the run was started by the poll, not by hand. -/
  poll : Bool
  allowRoutine : Bool
  allowContraction : Bool

-- launchd

/-- `la_wait_gone`, with at most so many looks. -/
def laWaitGone (label : Label) : Nat → Step Sha Plist Bool
  | 0 => pure false
  | rounds + 1 => do
      if ← ask (.print label) then
        if ← ask .deadline then pure false else laWaitGone label rounds
      else pure true

/-- `la_ensure_gone`, after a bootout. -/
def laEnsureGone (label : Label) (rounds : Nat) : Step Sha Plist Bool := do
  if ← laWaitGone label rounds then pure true
  else do
    ask (.kill label)
    laWaitGone label rounds

/-- `la_bootstrap`, and once more if that failed. -/
def laBootstrapTwice (label : Label) : Step Sha Plist Bool := do
  if ← ask (.bootstrap label) then pure true else pure (← ask (.bootstrap label))

/-- The traps `restore_ticks` and `reconcile_restore_ticks`. -/
def restoreTicks : List Label → Step Sha Plist Unit
  | [] => pure ()
  | label :: rest => do
      if ← ask (.plistExists label) then
        let _ ← ask (.bootstrap label)
        restoreTicks rest
      else restoreTicks rest

/-- A part that is run under the trap. -/
def guarded {Result : Type} (part : Run Sha Plist Result) : Run Sha Plist Result :=
  tryCatch part fun fault => do
    go (restoreTicks MUTATING_TICKS)
    die fault

def bootoutAll : List Label → Step Sha Plist Unit
  | [] => pure ()
  | label :: rest => do
      ask (.bootout label)
      bootoutAll rest

def ensureAllGone (rounds : Nat) : List Label → Run Sha Plist Unit
  | [] => pure ()
  | label :: rest => do
      orDie (← go (laEnsureGone label rounds)) (.survived label)
      ensureAllGone rounds rest

/-- Boot the ticks out and prove that they are gone, before their scripts are rewritten. -/
def quiesce (rounds : Nat) : Run Sha Plist Unit := do
  go (bootoutAll MUTATING_TICKS)
  ensureAllGone rounds MUTATING_TICKS
  if ← call .workers then die .workerRunning

-- Stage 0

/-- `reconcile.sh --dry-run`: no drift. -/
def dryRun : Step Sha Plist Bool := do
  if ← ask .configured then
    if ← ask .fetch then
      let checked ← ask (.check false)
      match ← ask .status with
      | .failed | .dirty => pure false
      | .clean => pure checked
    else pure false
  else pure false

/-- How a run ends that does not die. -/
inductive Ending (Sha : Type) where
  | disarmed
  | held
  | skipped
  | converged (sha : Sha)
  | reverted (bad good : Sha)
deriving DecidableEq, Repr

section Poll

variable [DecidableEq Sha]

/-- The tree is clean and there is no drift. -/
def upToDate : Step Sha Plist Bool := do
  match ← ask .status with
  | .clean => dryRun
  | .failed | .dirty => pure false

/-- The fetch, with one retry. -/
def fetchTwice : Step Sha Plist Bool := do
  if ← ask .fetch then pure true else pure (← ask .fetch)

/-- `bootstrap-fetch.sh` up to its trap: why nothing is to be done, if so. -/
def bootstrapFetch (env : Env) : Run Sha Plist (Option (Ending Sha)) := do
  orDie (← call .configured) .noConfig
  let armed ← call (.sentinelExists RECONCILE_SENTINEL)
  if env.poll && !armed then pure (some .disarmed)
  else do
    orDie (← call .deployClone) .noDeployClone
    orDie (← go fetchTwice) .fetchFailed
    match ← call .originSha with
    | none => die .noOriginSha
    | some origin =>
        match ← call .headSha with
        | none => die .noHeadSha
        | some head =>
            let running ← call .runningSha
            let quarantined ← call .quarantinedSha
            if quarantined = some origin then pure (some .held)
            else if origin = head ∧ running = some head then
              if ← go upToDate then pure (some .skipped) else pure none
            else pure none

/-- The rest of `bootstrap-fetch.sh`. -/
def resetToOrigin (rounds : Nat) : Run Sha Plist Unit := do
  quiesce rounds
  orDie (← call (.reset .originMain)) .resetFailed
  orDie (← call .clean) .resetFailed
  orDie (← call .reconcileExists) .noReconcile

-- Installing

/-- Install a plist unless it is there already, byte for byte and as a plain file. -/
def installPlist (label : Label) (plist : Plist) : Run Sha Plist Unit := do
  if ← call (.unchanged label plist) then pure ()
  else orDie (← call (.install label plist)) (.installFailed label)

/-- Whether the sentinel of a job is there, if it needs one. -/
def jobArmed (job : Job Plist) : Step Sha Plist Bool := do
  match job.requiresSentinel with
  | none => pure true
  | some sentinel => ask (.sentinelExists sentinel)

/-- The loop of `install_artifacts` over the descriptors; it adds to `ROLE_LABELS`. -/
def installJobs : List (Option (Job Plist)) → List Label → Run Sha Plist (List Label)
  | [], roleLabels => pure roleLabels
  | none :: _, _ => die .brokenDescriptor
  | some job :: rest, roleLabels =>
      if !job.applies then installJobs rest roleLabels
      else do
        if ← go (jobArmed job) then
          match ← call (.render job) with
          | none => die (.renderFailed job.label)
          | some plist =>
              installPlist job.label plist
              installJobs rest (roleLabels ++ [job.label])
        else installJobs rest roleLabels

/-- The labels that were managed and are not installed any more are booted out and removed. -/
def pruneOrphans (roleLabels : List Label) : List Label → Run Sha Plist Unit
  | [] => pure ()
  | label :: rest =>
      if label = .runtime ∨ label ∈ roleLabels ∨ label = .reconcile then
        pruneOrphans roleLabels rest
      else do
        call (.bootout label)
        orDie (← call (.remove label)) (.pruneFailed label)
        pruneOrphans roleLabels rest

/-- `install_artifacts`, with the `ROLE_LABELS` that it sets. -/
def installArtifacts : Run Sha Plist (List Label) := do
  match ← call .status with
  | .failed => die .statusFailed
  | .dirty => die .notClean
  | .clean =>
      orDie (← call .syncDeps) .depsFailed
      let roleLabels ← installJobs (← call .descriptors) []
      pruneOrphans roleLabels ((← call .managedLabels).getD [])
      pure roleLabels

-- The health gate

/-- Wait, for at most so many looks, until serve has a new process that stays and the relation that
the last migration makes is there.
-/
def awaitServe (oldPid : Option Nat) (headObject : String) : Nat → Option Nat → Step Sha Plist Bool
  | 0, _ => pure false
  | rounds + 1, prevPid => do
      let pid ← ask .servePid
      let present ← ask (.relationExists headObject)
      if pid.isSome ∧ pid ≠ oldPid ∧ pid = prevPid ∧ present then pure true
      else if ← ask .deadline then pure false
      else awaitServe oldPid headObject rounds pid

/-- Start one tick afresh. The poll may be what is running, and is then left loaded. -/
def startTick (env : Env) (rounds : Nat) (label : Label) : Step Sha Plist Bool := do
  if label = .runtime then pure true
  else if label = .reconcile then
    if env.poll then
      if ← ask (.print label) then pure true else laBootstrapTwice label
    else do
      ask (.bootout label)
      if ← laEnsureGone label rounds then laBootstrapTwice label else pure false
  else do
    ask (.bootout label)
    let _ ← laWaitGone label rounds
    laBootstrapTwice label

def startTicks (env : Env) (rounds : Nat) : List Label → Step Sha Plist Bool
  | [] => pure true
  | label :: rest => do
      if ← startTick env rounds label then startTicks env rounds rest else pure false

/-- Step 7: the manifest and the tree. -/
def verify : Step Sha Plist Bool := do
  let verified ← ask (.check true)
  match ← ask .status with
  | .failed | .dirty => pure false
  | .clean => pure verified

/-- `health_gate`, which never dies. -/
def healthGate (env : Env) (rounds : Nat) (roleLabels : List Label) : Step Sha Plist Bool := do
  match ← ask .migrationHead with
  | none => pure false
  | some headObject =>
      if ← ask (.print .runtime) then
        let oldPid ← ask .servePid
        if ← ask .kickstart then
          if ← awaitServe oldPid headObject rounds none then
            if ← startTicks env rounds roleLabels then verify else pure false
          else pure false
        else pure false
      else pure false

-- The converge

/-- What has passed the gate, and the version that failed it before. -/
structure Gated (Sha : Type) where
  sha : Sha
  roleLabels : List Label
  bad : Option Sha
deriving DecidableEq, Repr

/-- `prev_recoverable`. -/
def recoverable : Option Sha → Step Sha Plist (Option Sha)
  | none => pure none
  | some prevGood => do
      if ← ask (.commitExists prevGood) then pure (some prevGood) else pure none

/-- The migrations that came since the last good version must be additive. -/
def lintSince (isWord : Char → Bool) (env : Env) (prevGood : Sha) : Run Sha Plist Unit := do
  match ← call (.migrations prevGood) with
  | none => die .noMigrationDelta
  | some [] => pure ()
  | some files =>
      if env.allowContraction then pure ()
      else do
        let existing ← call .preexisting
        orDie (Migration.lintDeploy isWord env.allowRoutine existing files = .additive) .nonAdditive

/-- The lint of the migrations, if there is a version to go back to. -/
def lintMigrations (isWord : Char → Bool) (env : Env) (prevGood : Option Sha)
    : Run Sha Plist Unit := do
  match ← go (recoverable prevGood) with
  | none => pure ()
  | some prevGood => lintSince isWord env prevGood

/-- Back to the last good version, which must pass the gate. -/
def autoRevert (env : Env) (rounds : Nat) (bad prevGood : Sha) : Run Sha Plist (Gated Sha) := do
  quiesce rounds
  orDie (← call (.reset (.sha prevGood))) .resetFailed
  orDie (← call .clean) .resetFailed
  let roleLabels ← installArtifacts
  if ← go (healthGate env rounds roleLabels) then
    pure { sha := prevGood, roleLabels, bad := some bad }
  else die .twoFault

/-- `reconcile.sh` up to the point where its trap is cleared. -/
def converge (isWord : Char → Bool) (env : Env) (rounds : Nat) : Run Sha Plist (Gated Sha) := do
  orDie (← call .configured) .noConfig
  orDie (← call .deployClone) .noDeployClone
  let prevGood ← call .runningSha
  match ← call .headSha with
  | none => die .noHeadSha
  | some head =>
      lintMigrations isWord env prevGood
      let roleLabels ← installArtifacts
      if ← go (healthGate env rounds roleLabels) then pure { sha := head, roleLabels, bad := none }
      else do
        call (.logFailedGate head)
        match ← go (recoverable prevGood) with
        | none => die .unrecoverable
        | some prevGood => autoRevert env rounds head prevGood

/-- A version that failed is remembered; after a clean converge none is. -/
def setQuarantine : Option Sha → Run Sha Plist Unit
  | some bad => do orDie (← call (.writeQuarantined bad)) .quarantineNotSet
  | none => do orDie (← call .clearQuarantined) .quarantineNotSet

/-- The quarantine, and the commit point. -/
def commit (gated : Gated Sha) : Run Sha Plist Unit := do
  setQuarantine gated.bad
  orDie (← call (.writeManaged gated.roleLabels)) .managedNotWritten
  orDie (← call .writeManifest) .manifestNotWritten
  orDie (← call (.writeRunning gated.sha)) .runningNotWritten

/-- The last action: a poll that is loaded without its sentinel is booted out. -/
def disarm : Run Sha Plist Unit := do
  if ← call (.sentinelExists RECONCILE_SENTINEL) then pure ()
  else if ← call (.print .reconcile) then
    orDie (← call (.remove .reconcile)) .disarmFailed
    call (.bootout .reconcile)
    if ← call (.print .reconcile) then
      call (.bootout .reconcile)
      if ← call (.print .reconcile) then
        call .alarm
        die .disarmFailed
      else pure ()
    else pure ()
  else pure ()

/-- The alarm of a revert, and a look at the pool. -/
def report (bad : Option Sha) : Step Sha Plist Unit := do
  if bad.isSome then
    ask .alarm
    ask .recon
  else ask .recon

def Gated.ending (gated : Gated Sha) : Ending Sha :=
  match gated.bad with
  | none => .converged gated.sha
  | some bad => .reverted bad gated.sha

/-- One run of the static fetcher, and of the reconciler that it hands over to. -/
def poll (isWord : Char → Bool) (env : Env) (rounds : Nat) : Run Sha Plist (Ending Sha) := do
  match ← bootstrapFetch env with
  | some ending => pure ending
  | none =>
      guarded (resetToOrigin rounds)
      let gated ← guarded (converge isWord env rounds)
      commit gated
      go (report gated.bad)
      disarm
      pure gated.ending

end Poll

end Reconcile
