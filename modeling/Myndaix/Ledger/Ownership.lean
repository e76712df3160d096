import Myndaix.Ledger.Verified

/-! Who holds what: no repository has more live attempts than its cap, no job more than one
owner, and a worker that has lost its attempt can change nothing.
-/

namespace Ledger

open Interaction Relational Transactions

section Cap

variable {config : Config} {exact : Prop} {verb : Verb} {held : List Key}
  {database later : Database}

/-- Only a claim raises a hard count, and it claims below the cap. -/
theorem Commit.openNow_le (commit : Commit config exact verb held database later)
    (consistent : Consistent database) {repo : String}
    (below : database.openNow repo ≤ config.maxPerRepo)
    : later.openNow repo ≤ config.maxPerRepo := by
  cases commit with
  | quiet => exact below
  | settle settles => exact Nat.le_trans (settles.openNow repo) below
  | claim claims =>
      rw [claims.openNow consistent]
      split
      · exact (claims.capped repo ‹_›).2.2
      · exact below
  | admission admits => exact (admits.openNow consistent repo).symm ▸ below
  | ingest receives => rw [receives.same]; exact below
  | deliver outbox delivers => rw [delivers.same]; exact below
  | enqueue enqueues => rw [enqueues.same]; exact below

end Cap

variable {Client : Type} [DecidableEq Client] {config : Config} {system : LedgerSystem Client}

/-- In every state of the ledger a repository has at most `maxPerRepo` open attempts of leased
or running jobs, whatever its soft counter says.
-/
theorem openNow_le_maxPerRepo (reachable : LedgerReachable config system) (repo : String)
    : system.committed.openNow repo ≤ config.maxPerRepo :=
  ledger_preserves (fun database => database.openNow repo ≤ config.maxPerRepo)
    (Nat.zero_le _) (fun holds _ commit below => commit.openNow_le holds below) reachable

section Sample

/-- A ledger with one retry-safe agent and two slots for each repository. -/
def Config.sample : Config where
  maxPerRepo := 2
  registry agent := if agent = "echo" then some ⟨.responder, false⟩ else none
  collation := .codePoints
  scan rows := rows
  scan_perm _ := .refl _
  groups repos := repos
  groups_perm _ := .refl _

/-- A message for an agent that works on a repository, and the job that it queues. -/
def sampleRequest : List Verb :=
  [
    .ingestInbound 1 ⟨"telegram", some "chat", "update-1"⟩ "hello",
    .submitJob ⟨"echo", "hello", none, some 1, "user", some "repo", none, 0⟩ 2 10
  ]

/-- The job leased. -/
def sampleLeasing : List Verb :=
  sampleRequest ++ [Verb.leaseJob "worker" [] 3 20]

/-- The state that these verbs leave, or the empty ledger if one of them raises. -/
def sampleState (verbs : List Verb) : Database :=
  match store.runAll (code .sample) .empty verbs with
  | .ok database => database
  | .error _ => .empty

/-- A sample state is one that a serial run of its verbs reaches. -/
theorem sample_serial (called : Verb → Prop) (verbs : List Verb)
    (allowed : ∀ verb ∈ verbs, called verb)
    : Serial store (code .sample) called .empty (sampleState verbs) := by
  unfold sampleState
  split
  · exact Serial.start.runAll allowed ‹_›
  · exact .start

theorem sample_reachable (verbs : List Verb)
    : LedgerReachable .sample (System.quiet (sampleState verbs) : LedgerSystem Nat) :=
  (sample_serial (fun _ => True) verbs (fun _ _ => trivial)).reachable (fun _ => trivial)
  (fun _ => trivial)

/-- One of the two slots is taken. -/
theorem openNow_le_maxPerRepo_sample
    : (sampleState sampleLeasing).openNow "repo" = 1
      ∧ (sampleState sampleLeasing).openNow "repo" ≤ Config.sample.maxPerRepo :=
  ⟨by decide, openNow_le_maxPerRepo (sample_reachable sampleLeasing) "repo"⟩

end Sample

/-- The owner of a job is its open attempt: a leased or running job has exactly one, and only a
dead job can have one besides.
-/
structure SingleOwner (database : Database) : Prop where
  atMostOne : ∀ job, database.openCount job ≤ 1
  owned
    : ∀ job ∈ database.jobs, job.status.live = true → database.openCount job.id = 1
  leftBehind
    : ∀ job ∈ database.jobs,
        job.status.live = false → job.status ≠ .dead → database.openCount job.id = 0

theorem Consistent.singleOwner {database : Database} (holds : Consistent database)
    : SingleOwner database where
  atMostOne := holds.oneOpen
  owned := holds.owned
  leftBehind := by
    intro job mem idle alive
    simp only [Database.openCount, List.countP_eq_zero, Bool.and_eq_true, decide_eq_true_eq]
    rintro attempt inside ⟨own, isOpen⟩
    have found := lookup_of_mem holds.uniqueJob mem
    rcases holds.owner attempt inside job isOpen (own ▸ found) with live | dead
    · rw [idle] at live
      cases live
    · exact alive dead

/-- A step of a worker that has lost its lease: it does not commit, and raises nothing but
`LostLease`.
-/
def LostStep : Event LedgerError Verb Reply → Prop
  | .committed .. => False
  | .aborted _ error => ∃ message, error = .lostLease message
  | .began _ | .acted | .crashed _ => True

/-- Steps other than commits publish nothing. -/
theorem LostStep.unchanged {next : LedgerSystem Client} {client : Client}
    {event : Event LedgerError Verb Reply} (lost : LostStep event)
    (step : Step store (code config) system client event next)
    : next.committed = system.committed := by
  cases step with
  | began | acted | aborted | crashed => rfl
  | committed open_ finished => exact lost.elim

/-- In a sound system a verb about an attempt that is not open can only lose. -/
theorem fenced_step (reachable : LedgerReachable config system) {client : Client}
    {session : Session Database Key Change LedgerError Verb Reply} {attemptId : Id}
    (open_ : system.sessions client = some session)
    (fenced : session.verb.fences = some attemptId)
    (lost : ¬OpenIn system.committed attemptId) {event : Event LedgerError Verb Reply}
    {next : LedgerSystem Client}
    (step : Step store (code config) system client event next)
    : LostStep event := by
  have sound := ledger_sound reachable
  cases step with
  | began | acted | crashed => trivial
  | committed open' finished =>
      obtain rfl := Option.some.inj (open'.symm.trans open_)
      exact lost ((sound.finished open' finished).2.fenced attemptId fenced)
  | aborted open' raised =>
      obtain rfl := Option.some.inj (open'.symm.trans open_)
      rcases sound.permitted open' raised attemptId fenced with message | isOpen
      · exact message
      · exact absurd isOpen lost

/-- Alone, such a verb raises `LostLease`. -/
theorem fenced_alone {database : Database} (holds : Consistent database) {verb : Verb}
    {attemptId : Id} (fenced : verb.fences = some attemptId)
    (lost : ¬OpenIn database attemptId)
    : ∃ message, store.alone (code config verb) database = .error (.lostLease message) := by
  rcases alone_ends config verb holds with ⟨reply, place, _, rfl, _, ends⟩ | ⟨error, _, _, ran, may⟩
  · exact absurd (ends.fenced attemptId fenced) lost
  · rcases may attemptId fenced with ⟨message, rfl⟩ | isOpen
    · exact ⟨message, ran⟩
    · exact absurd isOpen lost

/-- An attempt that is closed stays as it is. -/
theorem closed_stays (reachable : LedgerReachable config system) {later : LedgerSystem Client}
    (onward : Onward store (code config) system later) {attempt : Attempt}
    (found : system.committed.attempt? attempt.id = some attempt)
    (closed : attempt.status ≠ .open_)
    : later.committed.attempt? attempt.id = some attempt := by
  have evolves := ledger_evolves reachable onward
  obtain ⟨next, found', _⟩ := evolves.attempt found
  rw [found', (evolves.attemptContinues found found').final closed]

/-- Single owner and fencing, in every state of the ledger: jobs have at most one owner, closed
attempts never change again, and a verb of a worker whose attempt is not open raises
`LostLease`, alone or among others, and changes nothing.
-/
theorem singleOwner_and_fenced (reachable : LedgerReachable config system)
    : SingleOwner system.committed
      ∧ (∀ later attempt,
          Onward store (code config) system later
          → system.committed.attempt? attempt.id = some attempt
          → attempt.status ≠ .open_
          → later.committed.attempt? attempt.id = some attempt)
      ∧ (∀ client session attemptId event next,
          system.sessions client = some session
          → session.verb.fences = some attemptId
          → ¬OpenIn system.committed attemptId
          → Step store (code config) system client event next
          → LostStep event ∧ next.committed = system.committed)
      ∧ ∀ verb attemptId,
          verb.fences = some attemptId
          → ¬OpenIn system.committed attemptId
          → ∃ message,
              store.alone (code config verb) system.committed = .error (.lostLease message) := by
  have holds : Consistent system.committed := (ledger_sound reachable).invariant
  refine ⟨holds.singleOwner, ?_, ?_, ?_⟩
  · exact fun later attempt onward found closed => closed_stays reachable onward found closed
  · intro client session attemptId event next open_ fenced lost step
    have lostStep := fenced_step reachable open_ fenced lost step
    exact ⟨lostStep, lostStep.unchanged step⟩
  · exact fun verb attemptId fenced lost => fenced_alone holds fenced lost

/-- The job cancelled after it was leased. -/
def sampleCancelled : List Verb :=
  sampleLeasing ++ [Verb.cancel 2 30]

/-- Its worker cannot complete it any more. -/
theorem singleOwner_and_fenced_sample
    : ((sampleState sampleCancelled).job? 2).map Job.status = some .dead
      ∧ (sampleState sampleCancelled).openCount 2 ≤ 1
      ∧ ∃ message,
          store.alone (code .sample (.completeAttempt 3 ⟨.ok, "late", none, none⟩ 4 40))
              (sampleState sampleCancelled)
            = .error (.lostLease message) := by
  have sound := singleOwner_and_fenced (sample_reachable sampleCancelled)
  refine ⟨by decide, sound.1.atMostOne 2, sound.2.2.2 _ 3 rfl ?_⟩
  rintro ⟨attempt, found, isOpen⟩
  have closed : ((sampleState sampleCancelled).attempt? 3).all
      (fun attempt => attempt.status ≠ .open_) = true := by
    decide
  change (sampleState sampleCancelled).attempt? 3 = some attempt at found
  rw [found] at closed
  simp [isOpen] at closed

end Ledger
