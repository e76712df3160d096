import Myndaix.Ledger.Grants
import Myndaix.Ledger.RetryBound
import Myndaix.Runner.Submission

/-! The workers of the pool, which lease an attempt, fetch its job and run it once, on top of the
ledger and whatever else its clients do there: no paid job is submitted twice.
-/

namespace Runner

open Ledger Transactions

-- The pool

/-- A worker's `process_attempt`: the call and how far it has come, once the job is fetched. -/
structure Run (Client : Type) where
  worker : Client
  call : Option (HfCall × Stage)

/-- The ledger, the run of each attempt that was leased, and the attempts whose runs have sent a
submit request, one entry for each request.
-/
structure PoolState (Client : Type) where
  ledger : LedgerSystem Client
  runs : Id → Option (Run Client)
  submits : List Id

section Steps

variable {Client : Type} [DecidableEq Client] (config : Config) (python : Python)

/-- One step of the pool. The ledger's clients do what they like, the workers and the janitor
among them; a worker that is answered an attempt has a run of it; it fetches the job and starts
the runner; and the runner goes on with whatever answer comes. A run that is cancelled, or whose
process dies, takes no more steps.
-/
inductive PoolStep : PoolState Client → PoolState Client → Prop
  | ledger {state client event next}
    (step : Step store (code config) state.ledger client event next)
    : PoolStep state { state with ledger := next }
  | lease {state client verb attemptId next}
    (step
      : Step store (code config) state.ledger client
          (.committed verb (.lease (.answered (some attemptId)))) next)
    : PoolStep state {
        state with
        ledger := next,
        runs := Function.update state.runs attemptId (some ⟨client, none⟩)
      }
  | fetch {state client attemptId job next} (call : HfCall)
    (leased : state.runs attemptId = some ⟨client, none⟩)
    (step
      : Step store (code config) state.ledger client
          (.committed (.getAttemptJob attemptId) (.job (some job))) next)
    : PoolStep state {
        state with
        ledger := next,
        runs :=
          Function.update state.runs attemptId (some ⟨client, some (call, call.start)⟩)
      }
  | run {state client attemptId call stage answer next}
    (running : state.runs attemptId = some ⟨client, some (call, stage)⟩)
    (advanced : advance python call stage answer = some next)
    : PoolStep state {
        state with
        runs := Function.update state.runs attemptId (some ⟨client, some (call, next)⟩),
        submits := if next.submits then state.submits ++ [attemptId] else state.submits
      }

/-- What the pool comes to from an empty ledger. -/
inductive PoolReachable : PoolState Client → Prop
  | start : PoolReachable ⟨.quiet .empty, fun _ => none, []⟩
  | step {state next} (earlier : PoolReachable state) (step : PoolStep config python state next)
    : PoolReachable next

end Steps

/-- The requests that the runs of a job's attempts have sent. -/
def PoolState.submitsOf {Client : Type} (state : PoolState Client) (jobId : Id) : Nat :=
  state.submits.countP (fun attemptId =>
    (state.ledger.committed.attempt? attemptId).any (fun attempt => attempt.jobId = jobId))

/-- The job's agent is a supplier that charges for every request. -/
def Paid (config : Config) (job : Job) : Prop :=
  (config.registry job.toAgent).any AgentSpec.nonIdempotent = true

-- Every attempt is submitted once

section Sound

variable {Client : Type} [DecidableEq Client] {config : Config} {python : Python}
  {state next : PoolState Client}

/-- The run has not sent its request. -/
def Run.guards (run : Run Client) : Bool :=
  match run.call with
  | none => true
  | some (_, stage) => stage.guards

/-- An attempt that has a run, or was submitted, was leased; it was submitted once at most, and
not yet if its run is in the URL guard or before.
-/
structure PoolState.Sound (config : Config) (state : PoolState Client) : Prop where
  reachable : LedgerReachable config state.ledger
  leased
    : ∀ attemptId run,
        state.runs attemptId = some run
        → attemptId ∈ state.ledger.committed.attempts.map Attempt.id
  known
    : ∀ attemptId ∈ state.submits, attemptId ∈ state.ledger.committed.attempts.map Attempt.id
  once : state.submits.Nodup
  unsent
    : ∀ attemptId run,
        state.runs attemptId = some run → run.guards = true → attemptId ∉ state.submits

theorem PoolStep.sound (step : PoolStep config python state next) (sound : state.Sound config)
    : next.Sound config := by
  cases step with
  | ledger step =>
      exact {
        reachable := sound.reachable.step step trivial
        leased := fun attemptId run found => attempts_stay step (sound.leased attemptId run found)
        known := fun attemptId mem => attempts_stay step (sound.known attemptId mem)
        once := sound.once
        unsent := sound.unsent
      }
  | @lease client verb attemptId next step =>
      obtain ⟨absent, present⟩ := granted_fresh sound.reachable step
      exact {
        reachable := sound.reachable.step step trivial
        leased := fun other run found => by
          simp only [Function.update_apply] at found
          split at found
          · rename_i same
            exact same ▸ present
          · exact attempts_stay step (sound.leased other run found)
        known := fun other mem => attempts_stay step (sound.known other mem)
        once := sound.once
        unsent := fun other run found guards => by
          simp only [Function.update_apply] at found
          split at found
          -- The attempt is new, so nothing was submitted for it.
          · rename_i same
            subst same
            exact fun mem => absent (sound.known other mem)
          · exact sound.unsent other run found guards
      }
  | @fetch client attemptId job next call leased step =>
      exact {
        reachable := sound.reachable.step step trivial
        leased := fun other run found => by
          simp only [Function.update_apply] at found
          split at found
          · rename_i same
            subst same
            exact attempts_stay step (sound.leased other _ leased)
          · exact attempts_stay step (sound.leased other run found)
        known := fun other mem => attempts_stay step (sound.known other mem)
        once := sound.once
        unsent := fun other run found guards => by
          simp only [Function.update_apply] at found
          split at found
          · rename_i same
            subst same
            exact sound.unsent other _ leased rfl
          · exact sound.unsent other run found guards
      }
  | @run client attemptId call stage answer after running advanced =>
      have leased := sound.leased attemptId _ running
      have unsent (guards : stage.guards = true) : attemptId ∉ state.submits :=
        sound.unsent attemptId _ running guards
      -- Only a run that is still in its URL guard comes to the submit request.
      have guards (notPast : after.guards = true ∨ after.submits = true) : stage.guards = true := by
        by_contra past
        obtain ⟨checks, submits⟩ := advance_past (Bool.eq_false_iff.mpr past) advanced
        rcases notPast with again | again
        · rw [checks] at again
          cases again
        · rw [submits] at again
          cases again
      have members {other : Id}
          (mem
            : other ∈ if after.submits then state.submits ++ [attemptId] else state.submits)
          : other ∈ state.submits ∨ other = attemptId ∧ after.submits = true := by
        split at mem
        · rename_i submits
          rcases List.mem_append.mp mem with old | new
          · exact Or.inl old
          · exact Or.inr ⟨List.mem_singleton.mp new, submits⟩
        · exact Or.inl mem
      exact {
        reachable := sound.reachable
        leased := fun other run found => by
          simp only [Function.update_apply] at found
          split at found
          · rename_i same
            exact same ▸ leased
          · exact sound.leased other run found
        known := fun other mem => by
          rcases members mem with old | ⟨rfl, _⟩
          · exact sound.known other old
          · exact leased
        once := by
          dsimp only
          split
          · rename_i submits
            refine List.nodup_append.mpr ⟨sound.once, List.nodup_singleton _, ?_⟩
            rintro other old new mem rfl
            exact unsent (guards (Or.inr submits)) (List.mem_singleton.mp mem ▸ old)
          · exact sound.once
        unsent := fun other run found checks mem => by
          simp only [Function.update_apply] at found
          rcases members mem with old | ⟨rfl, submits⟩
          · split at found
            · rename_i same
              subst same
              cases found
              exact unsent (guards (Or.inl checks)) old
            · exact sound.unsent other run found checks old
          · rw [if_pos rfl] at found
            cases found
            cases after with
            | submitting => cases checks
            | _ => cases submits
      }

/-- By induction on the run. -/
theorem PoolReachable.sound (reachable : PoolReachable config python state)
    : state.Sound config := by
  induction reachable with
  | start =>
      exact {
        reachable := .start
        leased := fun _ _ found => by cases found
        known := fun _ mem => by cases mem
        once := List.nodup_nil
        unsent := fun _ _ found => by cases found
      }
  | step _ step ih => exact step.sound ih

/-- A job is submitted at most once for each of its attempts: the submits are attempts of the
table, each of them there once.
-/
theorem PoolState.Sound.submitsOf_le (sound : state.Sound config) (jobId : Id)
    : state.submitsOf jobId ≤ state.ledger.committed.attemptCount jobId := by
  have unique : Relational.Unique Attempt.id state.ledger.committed.attempts :=
    (ledger_sound sound.reachable).invariant.uniqueAttempt
  let ofJob (attemptId : Id) : Bool :=
    (state.ledger.committed.attempt? attemptId).any (fun attempt => attempt.jobId = jobId)
  have counted
      : state.ledger.committed.attempts.countP
            (fun attempt => attempt.id ∈ state.submits && ofJob attempt.id)
          = state.submits.countP ofJob :=
    Relational.countP_ids unique sound.once
      (fun attemptId mem => mem_attemptIds.mp (sound.known attemptId mem))
  calc
    state.submitsOf jobId
      = state.ledger.committed.attempts.countP
          (fun attempt => attempt.id ∈ state.submits && ofJob attempt.id) := counted.symm
    _ ≤ state.ledger.committed.attemptCount jobId := by
        refine List.countP_mono_left (fun attempt mem chosen => ?_)
        have found : state.ledger.committed.attempt? attempt.id = some attempt :=
          Relational.lookup_of_mem unique mem
        obtain ⟨-, own⟩ := Bool.and_eq_true_iff.mp chosen
        simp only [ofJob, found, Option.any_some] at own
        exact own

end Sound

/-- The pool goes along with its ledger while no worker is answered. -/
theorem PoolReachable.ledger {Client : Type} [DecidableEq Client] {config : Config}
    {python : Python} {database : Database} {system : LedgerSystem Client}
    {runs : Id → Option (Run Client)} {submits : List Id}
    (earlier : PoolReachable config python ⟨.quiet database, runs, submits⟩)
    (reached : Reachable store (code config) unrestricted database system)
    : PoolReachable config python ⟨system, runs, submits⟩ := by
  induction reached with
  | start => exact earlier
  | step _ step _ ih => exact ih.step (.ledger step)

/-- A verb whose client is alone comes to its commit. -/
theorem PoolReachable.committing {Client : Type} [DecidableEq Client] {config : Config}
    {python : Python} {database after : Database} {runs : Id → Option (Run Client)}
    {submits : List Id} {verb : Verb} {reply : Reply}
    (earlier : PoolReachable config python ⟨.quiet database, runs, submits⟩)
    (ran : store.alone (code config verb) database = .ok (reply, after)) (client : Client)
    : ∃ before : LedgerSystem Client,
        PoolReachable config python ⟨before, runs, submits⟩
        ∧ Step store (code config) before client (.committed verb reply) (.quiet after) := by
  have began : Step store (code config) (.quiet database) client (.began verb) _ :=
    .began verb rfl
  have reached : Reachable store (code config) unrestricted database _ :=
    Reachable.start.step began trivial
  obtain ⟨before, reached, step⟩ := reached.finishing (fun _ => trivial) ran
  exact ⟨before, earlier.ledger reached, step⟩

/-- The registry's row of the paid media queue. -/
def higgsfield : AgentSpec :=
  ⟨.responder, true⟩

/-- Once its submit request may have reached the server, the runner returns no result that asks
for another try; and in every run of the pool a job of a supplier that charges is submitted once
at most.
-/
theorem paid_submitted_once (httpx : Httpx) (python : Python) (config : Config)
    (Client : Type) [DecidableEq Client]
    : (∀ call answers result,
        MayHaveArrived httpx python call answers
          → follow python call call.start answers = some (.returned result)
          → ¬result.Retryable)
      ∧ ∀ state : PoolState Client,
          PoolReachable config python state
          → ∀ job ∈ state.ledger.committed.jobs,
              Paid config job → state.submitsOf job.id ≤ 1 := by
  refine ⟨fun call answers result => arrived_not_retryable, ?_⟩
  intro state reachable job mem paid
  have unsafe_ : config.requeueSafe job.toAgent ≠ true := by
    obtain ⟨spec, found, charges⟩ := (Option.any_eq_true ..).mp paid
    simp [Config.requeueSafe, found, charges]
  have attempts := attemptCount_bounded reachable.sound.reachable job mem
  rw [if_neg unsafe_] at attempts
  exact (reachable.sound.submitsOf_le job.id).trans attempts

section Sample

/-- A client for which only the exceptions of connecting tell that nothing was sent. -/
def Httpx.sample : Httpx where
  arrived
    | .unreachable .. => false
    | _ => true
  unsent _ _ := rfl

def Python.sample : Python where
  str
    | .string text => text
    | _ => ""
  repr text := text
  lower text := text
  isZero literal := literal = "0"
  isfinite _ := true
  urlparse _ := none
  subscriptError _ := ""
  attributeError _ := ""

def HfCall.sample : HfCall where
  base := "https://platform.example"
  application := "/dop"
  key := "key"
  prompt := "a cat"
  imageUrl := "https://images.example/cat.png"
  deadline := 600
  motionId := none
  motionStrength := none
  endImageUrl := none
  retryMax := 2

/-- The submit times out after it was sent. -/
def sampleAnswers : List Answer :=
  [.checked none, .httpError "read timeout"]

/-- The sample ledger with the agent that charges. -/
def charging : Config :=
  { Config.sample with
    registry := fun agent => if agent = "higgsfield" then some higgsfield else none }

/-- A paid job, queued. -/
def sampleQueued : Database :=
  match store.runAll (code charging) .empty
    [.submitJob ⟨"higgsfield", "a cat", none, none, "user", none, none, 0⟩ 2 10]
  with
  | .ok database => database
  | .error _ => .empty

/-- What a verb answers on a ledger that no one else uses, and what it leaves. -/
def sampleRan (verb : Verb) (database : Database) : Reply × Database :=
  match store.alone (code charging verb) database with
  | .ok ran => ran
  | .error _ => (.unit, database)

/-- The job leased as attempt 3, and fetched. -/
def sampleLeased : Database :=
  (sampleRan (.leaseJob "worker" [] 3 20) sampleQueued).2

def sampleFetched : Database :=
  (sampleRan (.getAttemptJob 3) sampleLeased).2

/-- The worker is waiting for the answer to its submit. -/
def sampleSubmitted : PoolState Nat :=
  ⟨.quiet sampleFetched,
    Function.update
      (Function.update
        (Function.update (fun _ => none) 3 (some ⟨0, none⟩)) 3
        (some ⟨0, some (.sample, HfCall.sample.start)⟩)) 3
      (some ⟨0, some (.sample, .submitting)⟩),
    [3]⟩

theorem sampleSubmitted_reachable : PoolReachable charging .sample sampleSubmitted := by
  have queued
      : PoolReachable charging .sample
          (⟨.quiet sampleQueued, fun _ => none, []⟩ : PoolState Nat) := by
    have serial : Serial store (code charging) (fun _ => True) .empty sampleQueued :=
      Serial.start.runAll (fun _ _ => trivial)
        (show store.runAll (code charging) .empty
            [.submitJob ⟨"higgsfield", "a cat", none, none, "user", none, none, 0⟩ 2 10]
          = .ok sampleQueued from rfl)
    exact PoolReachable.start.ledger (serial.reachable (fun _ => trivial) (fun _ => trivial))
  obtain ⟨leasing, reached, step⟩ := queued.committing
    (show store.alone (code charging (.leaseJob "worker" [] 3 20)) sampleQueued
      = .ok (.lease (.answered (some 3)), sampleLeased) from rfl) 0
  have leased := reached.step (.lease step)
  obtain ⟨job, fetches⟩
      : ∃ job,
          store.alone (code charging (.getAttemptJob 3)) sampleLeased
            = .ok (.job (some job), sampleFetched) :=
    ⟨_, rfl⟩
  obtain ⟨fetching, reached, step⟩ := leased.committing fetches 0
  have fetched := reached.step (.fetch HfCall.sample (Function.update_self ..) step)
  have submits
      : advance .sample .sample HfCall.sample.start (.checked none) = some .submitting :=
    rfl
  exact fetched.step (.run rfl submits)

/-- The timeout is terminal, and the job is submitted once. -/
theorem paid_submitted_once_sample
    : (∃ result,
        MayHaveArrived .sample .sample .sample sampleAnswers
        ∧ follow .sample .sample HfCall.sample.start sampleAnswers = some (.returned result)
        ∧ ¬result.Retryable)
      ∧ ∃ job ∈ sampleSubmitted.ledger.committed.jobs,
          Paid charging job ∧ sampleSubmitted.submitsOf job.id = 1
          ∧ sampleSubmitted.submitsOf job.id ≤ 1 := by
  obtain ⟨runner, pool⟩ := paid_submitted_once .sample .sample charging Nat
  constructor
  · have arrived : MayHaveArrived .sample .sample .sample sampleAnswers :=
      ⟨[.checked none], .httpError "read timeout", [], rfl, rfl, rfl⟩
    exact ⟨_, arrived, rfl, runner .sample sampleAnswers _ arrived rfl⟩
  · have one : ∃ job, sampleFetched.jobs = [job] := ⟨_, rfl⟩
    obtain ⟨job, only⟩ := one
    have mem : job ∈ sampleSubmitted.ledger.committed.jobs :=
      only ▸ List.mem_singleton.mpr rfl
    have paid : Paid charging job := by
      have all
          : ∀ job ∈ sampleFetched.jobs,
              (charging.registry job.toAgent).any AgentSpec.nonIdempotent = true := by
        decide
      exact all job mem
    refine ⟨job, mem, paid, ?_, pool _ sampleSubmitted_reachable job mem paid⟩
    have all : ∀ job ∈ sampleFetched.jobs, sampleSubmitted.submitsOf job.id = 1 := by decide
    exact all job mem

end Sample

end Runner
