import Myndaix.Ledger.Alone
import Myndaix.Ledger.Binding
import Myndaix.Ledger.Ownership
import Myndaix.Outcomes.Verbs
import Myndaix.Text.Trim

/-! What an agent process printed, on its way into the ledger: the runner decodes it, the worker
records it, and what the ledger refuses becomes a failed attempt.
-/

namespace Runner

open Ledger Relational Transactions
open Text (Bytes CodePoint Points decodeReplacing points trim)

-- The runner

/-- The path of a captured diff; no path has a NUL in it. -/
structure ArtifactRef where
  path : String
  noNul : Char.ofNat 0 ∉ path.toList

/-- A `Result` as the runner makes it, before its text is bound to a statement. -/
structure Report where
  status : ResultStatus
  text : Points
  errorClass : Option ErrorClass
  artifactRef : Option ArtifactRef

def isSpacePoint (point : CodePoint) : Bool :=
  Outcomes.isSpace (Char.ofNat point.val)

/-- `_decode(...).strip()`. -/
def decodeStripped (bytes : Bytes) : Points :=
  trim isSpacePoint (decodeReplacing bytes)

/-- The result of a CLI process that ran to its end. -/
def processResult (code : Int) (out err : Bytes) : Report :=
  if code = 0 then
    let text := decodeStripped out
    let errText := decodeStripped err
    if text = [] ∧ errText ≠ [] then
      {
        status := .error,
        text := points "[empty stdout] " ++ errText.take 500,
        errorClass := some .retryable,
        artifactRef := none
      }
    else { status := .ok, text := text, errorClass := none, artifactRef := none }
  else
    {
      status := .error,
      text :=
        let diagnostic := decodeReplacing err
        trim isSpacePoint (if diagnostic = [] then decodeReplacing out else diagnostic),
      errorClass := some .terminal,
      artifactRef := none
    }

-- The worker

/-- The result as the ledger's tables hold it. -/
def Report.row (report : Report) (text : String) : Ledger.Result :=
  {
    status := report.status,
    text := text,
    errorClass := report.errorClass,
    artifactRef := report.artifactRef.map ArtifactRef.path
  }

/-- The parameters of the completing statement: the result is one of type `jsonb`, and its text is
one of type `text` too.
-/
def Report.bindCompletion (report : Report) : Option Ledger.Result :=
  if (bindJsonb report.text).isSome then (bindText report.text).map report.row else none

/-- The parameters of the failing statement: the result is one of type `jsonb`. -/
def Report.bindFailure (report : Report) : Option Ledger.Result :=
  (bindJsonb report.text).map report.row

/-- `append_log`: the chunk is a parameter of type `text`. -/
def appendLog (chunk : Points) : Option String :=
  bindText chunk

/-- How a call of the ledger ends for the worker that made it. -/
inductive Recorded : Type where
  | recorded
  | lostLease
  | raised
deriving DecidableEq

/-- The verb alone on the ledger. -/
def recordedBy (verb : Txn Unit) (database : Database) : Recorded × Database :=
  match store.alone verb database with
  | .ok ((), later) => (.recorded, later)
  | .error (.lostLease _) => (.lostLease, database)
  | .error _ => (.raised, database)

/-- The leased attempt that a worker records, and what is drawn for its statements. -/
structure Recording where
  attemptId : Id
  outboundId : Id
  now : Time

section Worker

variable (config : Config) (recording : Recording)

/-- `complete_attempt` or `fail_attempt`, as the result says. -/
def recordResult (report : Report) (database : Database) : Recorded × Database :=
  if report.status = .ok then
    match report.bindCompletion with
    | none => (.raised, database)
    | some result =>
        recordedBy
          (completeAttempt recording.attemptId result recording.outboundId recording.now)
          database
  else
    match report.bindFailure with
    | none => (.raised, database)
    | some result =>
        recordedBy (failAttempt config recording.attemptId result recording.now) database

/-- What the pool records of an attempt whose processing raised. -/
def unexpectedError : Ledger.Result :=
  {
    status := .error,
    text := "worker caught an unexpected error",
    errorClass := some .terminal,
    artifactRef := none
  }

/-- A worker of the pool with the result of its attempt: an exception is caught, and the attempt
failed for good.
-/
def settleAttempt (report : Report) (database : Database) : Recorded × Database :=
  match recordResult config recording report database with
  | (.raised, later) =>
      (.raised,
        (recordedBy (failAttempt config recording.attemptId unexpectedError recording.now)
          later).2)
  | other => other

end Worker

-- A completion alone

/-- The attempt is open, and its job leased or running: the worker still owns it. -/
structure Owned (database : Database) (attemptId : Id) (attempt : Attempt) (job : Job)
    : Prop where
  found : database.attempt? attemptId = some attempt
  opened : attempt.status = .open_
  itsJob : database.job? attempt.jobId = some job
  live : job.status.live = true

/-- The reply that a job owes, if a message asked for it. -/
def owedReply (database : Database) (outboundId : Id) (job : Job) (text : String)
    : Option Outbound :=
  (job.inboundEventId.bind database.inbound?).map
    (fun event => reply outboundId job event text)

theorem Owned.holdsLease {database : Database} {attemptId : Id} {attempt : Attempt} {job : Job}
    (owned : Owned database attemptId attempt job)
    : holdsLease attemptId database database = true := by
  simp [Ledger.holdsLease, owned.found, owned.opened, owned.itsJob, owned.live]

/-- Giving the slot back touches nothing but the counter. -/
theorem freeSlot_alone (snapshot database : Database) (repoId : Option String)
    : ∃ counters,
        store.alone (freeSlot snapshot repoId) database
        = .ok ((), { database with repoConcurrency := counters }) := by
  cases repoId with
  | none => exact ⟨database.repoConcurrency, rfl⟩
  | some repo =>
      have updated := @alone_updateSince database store snapshot (.repo repo)
        (fun rows => (rows.repo? repo).isSome) (.decrement repo 1)
      split at updated
      · refine ⟨(store.apply (.decrement repo 1) database).repoConcurrency, ?_⟩
        exact (Store.alone_then updated _).trans rfl
      · exact ⟨database.repoConcurrency, (Store.alone_then updated _).trans rfl⟩

theorem queueReply_alone {snapshot database : Database} {outboundId : Id} {job : Job}
    {text : String} (fresh : database.outbound? outboundId = none)
    : store.alone (queueReply snapshot outboundId job text) database
      = .ok ((),
          {
            database with
            outbound := database.outbound ++ (owedReply snapshot outboundId job text).toList
          }) := by
  unfold queueReply owedReply
  cases asked : job.inboundEventId.bind snapshot.inbound? with
  | none => simp [Store.alone, pure]
  | some event =>
      have absent
          : ([Key.outboundEntry outboundId].all fun key => !store.present key database) = true := by
        simp [store, storeWith, Key.present, fresh]
      have inserted := @alone_insert database store [Key.outboundEntry outboundId]
        (.insertOutbound (reply outboundId job event text))
      rw [if_pos absent] at inserted
      exact (Store.alone_then inserted _).trans rfl

/-- What a worker's completion leaves of a ledger where it owns the attempt. -/
structure Completed (before after : Database) (attempt : Attempt) (job : Job)
    (result : Ledger.Result) (recording : Recording)
    : Prop where
  closed
    : after.attempt? recording.attemptId
      = some (attempt.close .ok recording.now (some result) none)
  finished
    : after.job? attempt.jobId
      = some { job with status := .done, artifactRef := result.artifactRef }
  outbound
    : after.outbound
      = before.outbound ++ (owedReply before recording.outboundId job result.text).toList

theorem completeAttempt_alone {database : Database} {recording : Recording}
    {attempt : Attempt} {job : Job} (owned : Owned database recording.attemptId attempt job)
    (fresh : database.outbound? recording.outboundId = none) (result : Ledger.Result)
    : ∃ after,
        store.alone
            (completeAttempt recording.attemptId result recording.outboundId recording.now)
            database
          = .ok ((), after)
        ∧ Completed database after attempt job result recording := by
  have sameAttempt : attempt.id = recording.attemptId := lookup_key owned.found
  have sameJob : job.id = attempt.jobId := lookup_key owned.itsJob
  let closed := store.apply
    (.closeAttempts [recording.attemptId] .ok recording.now (some result) none) database
  obtain ⟨counters, freed⟩ := freeSlot_alone database closed job.repoId
  let finished := store.apply (.finishJob job.id result.artifactRef)
    { closed with repoConcurrency := counters }
  have queued := @queueReply_alone database finished recording.outboundId job result.text fresh
  refine ⟨
    {
      finished with
      outbound :=
        finished.outbound ++ (owedReply database recording.outboundId job result.text).toList
    }, ?_, ?_⟩
  · unfold completeAttempt
    rw [alone_look]
    simp only [owned.found, owned.holdsLease, if_true, alone_lock, alone_look, owned.itsJob,
      alone_write]
    rw [Store.alone_then freed, alone_write]
    exact queued
  · have found : lookup Attempt.id recording.attemptId database.attempts = some attempt :=
      owned.found
    have itsJob : lookup Job.id attempt.jobId database.jobs = some job := owned.itsJob
    refine ⟨?_, ?_, rfl⟩
    · refine (lookup_update ?_).trans ((congrArg (Option.map _) found).trans ?_)
      · exact fun _ => rfl
      · simp [sameAttempt]
    · refine (lookup_update ?_).trans ((congrArg (Option.map _) itsJob).trans ?_)
      · exact fun _ => rfl
      · simp

-- What can be recorded

theorem isSpacePoint_storable {point : CodePoint} (bad : unstorable point = true)
    : isSpacePoint point = false := by
  have zero : Char.ofNat point.val = Char.ofNat 0 := by
    unfold unstorable Text.isSurrogate at bad
    simp only [Bool.or_eq_true, Bool.and_eq_true, decide_eq_true_eq] at bad
    rcases bad with rfl | surrogate
    · rfl
    · have invalid : ¬ Nat.isValidChar point.val := by
        unfold Nat.isValidChar
        omega
      rw [Char.ofNat, dif_neg invalid]
      rfl
  rw [isSpacePoint, zero]
  decide

/-- The decoder gives no surrogates, so just a zero byte makes a text that no column takes. -/
theorem storable_decodeStripped (bytes : Bytes)
    : Storable (decodeStripped bytes) ↔ 0 ∉ bytes := by
  rw [← Text.zero_mem_decodeReplacing]
  constructor
  · intro storable mem
    have kept : 0 ∈ decodeStripped bytes :=
      (Text.mem_trim (isSpacePoint_storable rfl)).mpr mem
    cases storable 0 kept
  · intro absent point mem
    replace mem := (Text.trim_infix isSpacePoint _).subset mem
    rw [unstorable, Text.decodeReplacing_scalar mem, Bool.or_false,
      decide_eq_false_iff_not]
    exact fun zero => absent (zero ▸ mem)

/-- An agent's output is recorded: the log takes it, and where the worker owns the attempt the
call succeeds, with the job done and the reply that it owes queued.
-/
structure Settles (config : Config) (recording : Recording) (report : Report)
    (before : Database) (attempt : Attempt) (job : Job)
    : Prop where
  logged : ∃ chunk, appendLog report.text = some chunk
  settled
    : ∃ after result,
        settleAttempt config recording report before = (.recorded, after)
        ∧ bindText report.text = some result.text
        ∧ Completed before after attempt job result recording

theorem processResult_ok {out err : Bytes} (filled : decodeStripped out ≠ [])
    : processResult 0 out err
      = { status := .ok, text := decodeStripped out, errorClass := none, artifactRef := none } := by
  unfold processResult
  simp only [if_true, filled, false_and, if_false]

theorem processResult_text {out err : Bytes} (fine : (processResult 0 out err).status = .ok)
    : (processResult 0 out err).text = decodeStripped out := by
  unfold processResult at fine ⊢
  simp only [if_true] at fine ⊢
  split at fine
  · cases fine
  · rename_i other
    rw [if_neg other]

theorem Storable.bindCompletion {report : Report} (storable : Storable report.text)
    : ∃ result,
        report.bindCompletion = some result ∧ bindText report.text = some result.text := by
  have bound := bindText_of_storable storable
  refine ⟨report.row _, ?_, bound⟩
  unfold Report.bindCompletion bindJsonb
  rw [if_pos storable.jsonb, bound]
  rfl

/-- An agent's output is recorded exactly if it has no zero byte. -/
theorem output_recorded_iff (config : Config) {database : Database} {recording : Recording}
    {attempt : Attempt} {job : Job} (owned : Owned database recording.attemptId attempt job)
    (fresh : database.outbound? recording.outboundId = none) (artifactRef : Option ArtifactRef)
    (out err : Bytes)
    : ((processResult 0 out err).status = .ok
        → Settles config recording { processResult 0 out err with artifactRef := artifactRef }
          database attempt job)
      ↔ 0 ∉ out := by
  rw [← storable_decodeStripped]
  constructor
  · intro settles
    by_cases filled : decodeStripped out = []
    · rw [filled]
      exact nofun
    · rw [processResult_ok filled] at settles
      obtain ⟨chunk, logged⟩ := (settles rfl).logged
      exact bindText_isSome.mp (Option.isSome_iff_exists.mpr ⟨chunk, logged⟩)
  · intro storable fine
    rw [← processResult_text fine] at storable
    obtain ⟨result, completion, bound⟩ := @Storable.bindCompletion
      { processResult 0 out err with artifactRef := artifactRef } storable
    obtain ⟨after, ran, completed⟩ := completeAttempt_alone owned fresh result
    refine ⟨⟨_, bound⟩, after, result, ?_, bound, completed⟩
    unfold settleAttempt recordResult recordedBy
    rw [if_pos fine, completion]
    simp only [ran]

/-- A leased job that a message asked for. -/
def sampleJob : Job :=
  {
    id := 2,
    parentId := none,
    rootId := 2,
    depth := 0,
    createdBy := "user",
    inboundEventId := some 1,
    toAgent := "echo",
    body := "hello",
    priority := 0,
    status := .leased,
    repoId := some "repo",
    baseRef := none,
    artifactRef := none,
    createdAt := 10
  }

def sampleAttempt : Attempt :=
  {
    id := 3,
    jobId := 2,
    workerId := "worker",
    leaseExpiresAt := 20 + leaseSeconds,
    endedAt := none,
    status := .open_,
    result := none,
    errorClass := none
  }

theorem sample_owned : Owned (sampleState sampleLeasing) 3 sampleAttempt sampleJob where
  found := by decide +kernel
  opened := rfl
  itsJob := by decide +kernel
  live := rfl

theorem output_recorded_iff_sample
    : Settles .sample ⟨3, 4, 30⟩ (processResult 0 [0x6F, 0x6B, 0xFF, 0x0A] [])
        (sampleState sampleLeasing) sampleAttempt sampleJob :=
  (@output_recorded_iff .sample _ ⟨3, 4, 30⟩ _ _ sample_owned (by decide +kernel) none
      [0x6F, 0x6B, 0xFF, 0x0A] []).mpr (by decide) (by decide)

/-- A zero byte between two letters: the call raises, and the job fails without a reply. -/
theorem zero_byte_lost
    : ¬ ((processResult 0 [0x61, 0x00, 0x62] []).status = .ok
          → Settles .sample ⟨3, 4, 30⟩ (processResult 0 [0x61, 0x00, 0x62] [])
            (sampleState sampleLeasing) sampleAttempt sampleJob)
      ∧ (settleAttempt .sample ⟨3, 4, 30⟩ (processResult 0 [0x61, 0x00, 0x62] [])
          (sampleState sampleLeasing)).1 = .raised
      ∧ ((settleAttempt .sample ⟨3, 4, 30⟩ (processResult 0 [0x61, 0x00, 0x62] [])
          (sampleState sampleLeasing)).2.job? 2).map Job.status = some .failed
      ∧ (settleAttempt .sample ⟨3, 4, 30⟩ (processResult 0 [0x61, 0x00, 0x62] [])
          (sampleState sampleLeasing)).2.outbound = [] := by
  refine ⟨fun settles => ?_, by decide +kernel, by decide +kernel, by decide +kernel⟩
  obtain ⟨after, result, ran, -, -⟩ := (settles (by decide +kernel)).settled
  have raised
      : (settleAttempt .sample ⟨3, 4, 30⟩ (processResult 0 [0x61, 0x00, 0x62] [])
          (sampleState sampleLeasing)).1 = .raised := by decide +kernel
  rw [ran] at raised
  cases raised

end Runner
