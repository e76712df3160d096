import Myndaix.Ledger.Ownership
import Myndaix.Transactions.Schedule

/-! The letters of `fail_attempt` and `reclaim_expired`, and the jobs that they really let die: a
cancelled job that still has an open attempt gets a letter although nothing moves it.
-/

namespace Ledger

open Interaction Relational Transactions

-- Deaths and letters

/-- A job went from leased or running to dead. -/
def movedToDead (before after : Database) (id : Id) : Bool :=
  (before.job? id).any (fun job => job.status.live)
  && (after.job? id).any (fun job => job.status = .dead)

/-- The letters that were added are those of the jobs that died. -/
def LettersMatch (before after : Database) : Prop :=
  ∃ letters,
    after.deadLetters = before.deadLetters ++ letters
    ∧ ∀ id,
        letters.countP (fun letter => letter.sourceId = id)
          = if movedToDead before after id = true then 1 else 0

theorem LettersMatch.refl (rows : Database) : LettersMatch rows rows := by
  refine ⟨[], by simp, fun id => ?_⟩
  have unmoved : movedToDead rows rows id = false := by
    cases found : rows.job? id with
    | none => simp [movedToDead, found]
    | some job => cases status : job.status <;> simp [movedToDead, found, status, JobStatus.live]
  simp [unmoved]

/-- The failure is one after which its agent's job is not tried again. -/
def lethal (config : Config) (errorClass : Option ErrorClass) (toAgent : String) (attempts : Nat)
    : Bool :=
  errorClass = some .retryable && (!config.requeueSafe toAgent || maxAttempts ≤ attempts)

/-- `fail_attempt` is about to report such a failure for an attempt whose job is neither leased nor
running.
-/
def strays (config : Config) (verb : Verb) (rows : Database) : Bool :=
  match verb with
  | .failAttempt attemptId result _ =>
      (rows.attempt? attemptId).any (fun attempt =>
        (rows.job? attempt.jobId).any (fun job =>
          !job.status.live
          && lethal config result.errorClass job.toAgent (rows.attemptCount job.id)))
  | _ => false

section Fate

variable {config : Config} {errorClass : Option ErrorClass} {toAgent : String} {attempts : Nat}

theorem routeFailure_isSome
    : (routeFailure config errorClass toAgent attempts).2.isSome
      = lethal config errorClass toAgent attempts := by
  unfold routeFailure lethal
  by_cases retryable : errorClass = some .retryable
  · by_cases safe : config.requeueSafe toAgent = true
    · by_cases poisoned : maxAttempts ≤ attempts
      · simp [retryable, safe, poisoned]
      · simp [retryable, safe, poisoned]
    · simp [retryable, safe]
  · simp [retryable]

theorem routeFailure_dead
    : (routeFailure config errorClass toAgent attempts).1 = .dead
      ↔ lethal config errorClass toAgent attempts = true := by
  rw [← routeFailure_isSome]
  rcases routeFailure_cases config errorClass toAgent attempts
    with ⟨reason, fate⟩ | ⟨fate, _⟩ | fate <;> simp [fate]

end Fate

-- What a commit adds

section Commits

variable {config : Config} {exact : Prop} {verb : Verb} {held : List Key} {rows later : Database}
  {closeRow : Attempt → Attempt} {moveRow : Job → Job} {replies : List Outbound}
  {letters : List DeadLetter}

/-- What became of a job that was there. -/
theorem Settles.movesToDead
    (settles : Settles config exact verb rows later closeRow moveRow replies letters) {id : Id}
    {job : Job} (found : rows.job? id = some job)
    : movedToDead rows later id = (job.status.live && decide ((moveRow job).status = .dead)) := by
  rw [movedToDead, settles.job?, found]
  rfl

/-- A letter is about a job that is there. -/
theorem Settles.letterJob
    (settles : Settles config exact verb rows later closeRow moveRow replies letters)
    (consistent : Consistent rows) {letter : DeadLetter} (mem : letter ∈ letters)
    : ∃ job,
        rows.job? letter.sourceId = some job ∧ (job.status.live = true ∨ verb.fails = true) := by
  obtain ⟨_, job, inside, own, lives⟩ := settles.letterRows letter mem
  exact ⟨job, own ▸ lookup_of_mem consistent.uniqueJob inside, lives⟩

/-- Reclaiming writes letters for live jobs only. -/
theorem Settles.reclaimed
    (settles : Settles config exact verb rows later closeRow moveRow replies letters)
    (consistent : Consistent rows) (buries : verb.buries = true) (fails : verb.fails = false)
    : LettersMatch rows later := by
  refine ⟨letters, settles.deadLetters, fun id => ?_⟩
  have silent (unburied : ∀ job, rows.job? id = some job → job.status.live = false)
      : letters.countP (fun letter => letter.sourceId = id) = 0 := by
    simp only [List.countP_eq_zero, decide_eq_true_eq]
    intro letter mem same
    obtain ⟨job, found, lives⟩ := settles.letterJob consistent mem
    rw [fails] at lives
    rw [unburied job (same ▸ found)] at lives
    simp at lives
  cases found : rows.job? id with
  | some job =>
      rw [settles.movesToDead found]
      by_cases live : job.status.live = true
      · have buried := settles.buried buries job (lookup_mem found) live
        rw [lookup_key found] at buried
        simp [buried, live]
      · have dead := silent fun other same => by
          cases found.symm.trans same
          simpa using live
        simp [dead, live]
  | none =>
      have dead := silent fun other same => by
        rw [found] at same
        cases same
      simp [dead, movedToDead, found]

theorem Commit.reclaimed (commit : Commit config exact verb held rows later)
    (consistent : Consistent rows) (buries : verb.buries = true) (fails : verb.fails = false)
    : LettersMatch rows later := by
  cases commit with
  | quiet => exact .refl rows
  | settle settles => exact settles.reclaimed consistent buries fails
  | claim | admission | ingest | enqueue => cases buries
  | deliver outbox =>
      cases verb with
      | failAttempt => cases fails
      | reclaimExpired => cases outbox
      | _ => cases buries

/-- Routing a job and writing its letter match if the job was live, or is not to die. -/
theorem Settles.routed {job : Job} {fate : JobStatus × Option String}
    (settles
      : Settles config exact verb rows later closeRow
        (routeRow job.status.live job.id fate.1) replies
          (fate.2.map (DeadLetter.mk job.id)).toList)
    (found : rows.job? job.id = some job) (dies : fate.1 = .dead ↔ fate.2.isSome = true)
    : LettersMatch rows later ↔ (!job.status.live && fate.2.isSome) = false := by
  have own : movedToDead rows later job.id = (job.status.live && fate.2.isSome) := by
    rw [settles.movesToDead found]
    cases live : job.status.live with
    | false => rfl
    | true => simp [routeRow, setAmong, dies]
  have other (id : Id) (different : id ≠ job.id) : movedToDead rows later id = false := by
    cases there : rows.job? id with
    | none => simp [movedToDead, there]
    | some row =>
        have unmoved : routeRow job.status.live job.id fate.1 row = row := by
          have apart : row.id ∉ [job.id] := by
            rw [lookup_key there]
            simpa using different
          unfold routeRow
          split
          · exact if_neg apart
          · rfl
        rw [settles.movesToDead there, unmoved]
        cases status : row.status <;> rfl
  have counted (id : Id)
      : (fate.2.map (DeadLetter.mk job.id)).toList.countP (fun letter => letter.sourceId = id)
        = if id = job.id ∧ fate.2.isSome = true then 1 else 0 := by
    cases fate.2 with
    | none => simp
    | some reason =>
        by_cases same : id = job.id
        · simp [same]
        · simp [same, Ne.symm same]
  constructor
  · rintro ⟨letters, appended, matched⟩
    obtain rfl := List.append_cancel_left (settles.deadLetters.symm.trans appended)
    have matched := matched job.id
    rw [counted, own] at matched
    cases live : job.status.live with
    | true => rfl
    | false =>
        cases lethal : fate.2.isSome with
        | false => rfl
        | true => simp [live, lethal] at matched
  · intro orderly
    refine ⟨_, settles.deadLetters, fun id => ?_⟩
    rw [counted]
    by_cases same : id = job.id
    · subst same
      rw [own]
      cases live : job.status.live with
      | true => simp
      | false =>
          rw [live, Bool.not_false, Bool.true_and] at orderly
          simp [orderly]
    · simp [same, other id same]

/-- Failing writes the letter of a lethal failure, and moves the job if that was live. -/
theorem Fails.lettersMatch {attemptId : Id} {result : Result} {now : Time}
    {place : Place Database Key Change} {attempt : Attempt} {job : Job}
    (fails : Fails config attemptId result now place attempt job)
    : LettersMatch place.committed (store.viewAt place)
      ↔ strays config (.failAttempt attemptId result now) place.committed = false := by
  obtain rfl : attempt.id = attemptId := lookup_key fails.found
  have settles := settles_fail config True result now fails.consistent fails.found fails.isOpen
    fails.foundJob
  have changes := fails.changes
  dsimp only at settles changes
  rw [← changes] at settles
  have identity : job.id = attempt.jobId := lookup_key fails.foundJob
  have stray : strays config (.failAttempt attempt.id result now) place.committed
      = (!job.status.live
        && lethal config result.errorClass job.toAgent (place.committed.attemptCount job.id)) := by
    simp [strays, fails.found, fails.foundJob]
  rw [stray, ← routeFailure_isSome]
  refine settles.routed (identity ▸ fails.foundJob) ?_
  rw [routeFailure_isSome, routeFailure_dead]

end Commits

-- The discipline

variable {Client : Type} [DecidableEq Client] {config : Config}

/-- What a transaction of `fail_attempt` has done by its end. -/
def Failing (config : Config) (verb : Verb) (place : Place Database Key Change) : Prop :=
  match verb with
  | .failAttempt attemptId result now =>
      ∃ attempt job, Fails config attemptId result now place attempt job
  | _ => True

/-- The protocol, with what `fail_attempt` has done. -/
def burials {Client : Type} (config : Config)
    (constraint
      : LedgerSystem Client → Client → Event LedgerError Verb Reply → LedgerSystem Client
        → Prop)
    : Discipline store (code config) constraint where
  invariant := Consistent
  rely _ := Rely False
  permits := Permits config
  post verb _ _ place := (Guarded place ∧ Ends config False verb place) ∧ Failing config verb place
  rely_refl _ := Rely.refl False
  rely_trans := Rely.trans
  invariant_commit holds ends := ends.1.2.commit.consistent ends.1.1.framed holds
  rely_commit := by
    intro system next client session result other watcher _ _ holds ends _ disjoint
    refine ⟨?_, False.elim⟩
    refine (ends.1.2.commit.evolves ends.1.1.framed holds).mono ?_
    exact fun key held watched => disjoint key watched held

theorem burials_verified {Client : Type} {config : Config}
    {constraint
      : LedgerSystem Client → Client → Event LedgerError Verb Reply → LedgerSystem Client
        → Prop}
    : (burials config constraint).Verified := by
  intro verb began holds
  have kept :=
    (protocol_verified verbs_keep : (protocol config constraint).Verified) verb began holds
  refine kept.and ?_
  cases verb with
  | failAttempt attemptId result now => exact failAttempt_ensures attemptId result now began holds
  | _ => exact kept.weaken fun _ _ _ => trivial

/-- Every commit of the two verbs adds just the letters of the jobs that it moves to dead, unless
`fail_attempt` reports a lethal failure for a job that is not live.
-/
theorem commit_lettersMatch
    {constraint
      : LedgerSystem Client → Client → Event LedgerError Verb Reply → LedgerSystem Client → Prop}
    {system next : LedgerSystem Client} {client : Client} {verb : Verb} {reply : Reply}
    (reachable : Reachable store (code config) constraint .empty system)
    (step : Step store (code config) system client (.committed verb reply) next)
    (buries : verb.buries = true)
    : LettersMatch system.committed next.committed
      ↔ strays config verb system.committed = false := by
  have sound := (burials_verified : (burials config constraint).Verified).sound Consistent.empty
    reachable
  cases step with
  | @committed session _ open_ finished =>
      obtain ⟨⟨_, ends⟩, failing⟩ := sound.finished open_ finished
      have consistent : Consistent system.committed := sound.invariant
      cases isVerb : session.verb with
      | failAttempt attemptId result now =>
          rw [isVerb] at failing
          obtain ⟨attempt, job, fails⟩ := failing
          exact fails.lettersMatch
      | reclaimExpired healedAt now =>
          exact iff_of_true (ends.commit.reclaimed consistent buries (by rw [isVerb]; rfl)) rfl
      | _ =>
          rw [isVerb] at buries
          cases buries

-- Runs

/-- The jobs about which a step writes letters through the two verbs. -/
def buriedBy (event : Event LedgerError Verb Reply) (before after : Database) : List Id :=
  match event with
  | .committed verb _ =>
      if verb.buries then
        (after.deadLetters.drop before.deadLetters.length).map (fun letter => letter.sourceId)
      else []
  | _ => []

/-- The runs in which `fail_attempt` never reports a lethal failure for a job that is not live, with
the jobs that the two verbs have written letters about.
-/
inductive Burials (config : Config) : LedgerSystem Client → List Id → Prop
  | start : Burials config (.quiet .empty) []
  | step {system next : LedgerSystem Client} {client : Client}
    {event : Event LedgerError Verb Reply} {buried : List Id}
    (earlier : Burials config system buried)
    (step : Step store (code config) system client event next)
    (orderly
      : ∀ verb reply, event = .committed verb reply → strays config verb system.committed = false)
    : Burials config next (buried ++ buriedBy event system.committed next.committed)

variable {buried : List Id} {system next : LedgerSystem Bool} {client : Bool}

theorem Burials.reachable {system : LedgerSystem Client} (burials : Burials config system buried)
    : LedgerReachable config system := by
  induction burials with
  | start => exact .start
  | step _ step _ ih => exact ih.step step trivial

/-- A job that died in a matching commit was alive before and is dead now. -/
theorem LettersMatch.moved {before after : Database} (matches_ : LettersMatch before after)
    : ((after.deadLetters.drop before.deadLetters.length).map (fun letter => letter.sourceId)).Nodup
      ∧ ∀ id ∈ (after.deadLetters.drop before.deadLetters.length).map
        (fun letter => letter.sourceId),
          movedToDead before after id = true := by
  obtain ⟨letters, appended, counts⟩ := matches_
  rw [appended, List.drop_left]
  have counted (id : Id)
      : (letters.map (fun letter => letter.sourceId)).count id
        = if movedToDead before after id = true then 1 else 0 := by
    rw [← counts id, List.count_eq_countP, List.countP_map]
    rfl
  constructor
  · refine List.nodup_iff_count_le_one.mpr fun id => ?_
    rw [counted]
    split <;> omega
  · intro id mem
    by_contra still
    have none_ := counted id
    rw [if_neg still] at none_
    exact List.count_eq_zero.mp none_ mem

/-- No job gets two letters from the two verbs: it is dead from the first on, by induction on the
run.
-/
theorem Burials.once {system : LedgerSystem Client} (burials : Burials config system buried)
    : buried.Nodup
      ∧ ∀ id ∈ buried, ∃ job, system.committed.job? id = some job ∧ job.status = .dead := by
  induction burials with
  | start => exact ⟨List.nodup_nil, nofun⟩
  | @step system next client event buried earlier step orderly ih =>
      obtain ⟨nodup, dead⟩ := ih
      have evolves := ledger_evolves earlier.reachable (.single ⟨client, event, step⟩)
      have stays : ∀ id ∈ buried,
          ∃ job, next.committed.job? id = some job ∧ job.status = .dead := by
        intro id mem
        obtain ⟨job, found, isDead⟩ := dead id mem
        obtain ⟨later, found', _⟩ := evolves.1.job found
        have same := (evolves.jobContinues found found').final (by rw [isDead]; rfl)
        exact ⟨later, found', same ▸ isDead⟩
      by_cases buries : ∃ verb reply, event = .committed verb reply ∧ verb.buries = true
      · obtain ⟨verb, reply, rfl, buries⟩ := buries
        have matches_ := (commit_lettersMatch earlier.reachable step buries).mpr
          (orderly verb reply rfl)
        obtain ⟨fresh, moved⟩ := matches_.moved
        rw [buriedBy, if_pos buries]
        constructor
        · refine List.nodup_append.mpr ⟨nodup, fresh, ?_⟩
          intro id old other new same
          subst same
          obtain ⟨job, found, isDead⟩ := dead id old
          have lived := moved id new
          simp [movedToDead, found, isDead, JobStatus.live] at lived
        · intro id mem
          rcases List.mem_append.mp mem with old | new
          · exact stays id old
          · have died := moved id new
            rw [movedToDead, Bool.and_eq_true, Option.any_eq_true, Option.any_eq_true] at died
            obtain ⟨_, job, found, isDead⟩ := died
            exact ⟨job, found, by simpa using isDead⟩
      · have none_ : buriedBy event system.committed next.committed = [] := by
          cases event with
          | committed verb reply =>
              exact if_neg fun asked => buries ⟨verb, reply, rfl, asked⟩
          | _ => rfl
        rw [none_, List.append_nil]
        exact ⟨nodup, stays⟩

/-- The letters of the two verbs match the jobs that they let die, in just the commits that are not
stray, and without stray commits no job gets two.
-/
theorem letters_match (config : Config)
    : (∀ (system next : LedgerSystem Client) (client : Client) (verb : Verb) (reply : Reply),
        LedgerReachable config system
        → Step store (code config) system client (.committed verb reply) next
        → verb.buries = true
        → (LettersMatch system.committed next.committed
            ↔ strays config verb system.committed = false))
      ∧ ∀ (system : LedgerSystem Client) (buried : List Id), Burials config system buried
        → buried.Nodup :=
  ⟨fun _ _ _ _ _ reachable step buries => commit_lettersMatch reachable step buries,
    fun _ _ burials => burials.once.1⟩

section Samples

/-- The client opens a transaction, makes its calls, and is about to commit. -/
def ready (system : LedgerSystem Bool) (client : Bool) (verb : Verb) (calls : Nat)
    : Option (LedgerSystem Bool) := do
  let system ← system.begin (code .sample) client verb
  system.play store [false, true] (List.replicate calls client)

/-- Calls bury nobody, by induction on them. -/
theorem Burials.acts {order : List Bool} (earlier : Burials .sample system buried)
    (played : system.play store [false, true] order = some next)
    : Burials .sample next buried := by
  induction order generalizing system with
  | nil =>
      cases played
      exact earlier
  | cons client order ih =>
      obtain ⟨between, acted, rest⟩ := Option.bind_eq_some_iff.mp played
      have step : Step store (code .sample) system client .acted between :=
        System.act_sound (by decide) acted
      refine ih ?_ rest
      have later := earlier.step step (fun _ _ same => by cases same)
      rwa [show buriedBy .acted system.committed between.committed = [] from rfl,
        List.append_nil] at later

theorem Burials.ready {verb : Verb} {calls : Nat} (earlier : Burials .sample system buried)
    (prepared : ready system client verb calls = some next)
    : Burials .sample next buried := by
  obtain ⟨began, begins, played⟩ := Option.bind_eq_some_iff.mp prepared
  have step : Step store (code .sample) system client (.began verb) began :=
    System.begin_sound begins
  have later := earlier.step step (fun _ _ same => by cases same)
  rw [show buriedBy (.began verb) system.committed began.committed = [] from rfl,
    List.append_nil] at later
  exact later.acts played

/-- The client commits, and this is the system after it. -/
def committing (system : LedgerSystem Bool) (client : Bool) : Option (LedgerSystem Bool) :=
  (system.commit store client).map (fun committed => committed.2.2)

theorem committing_step (commits : committing system client = some next)
    : ∃ verb reply, Step store (code .sample) system client (.committed verb reply) next := by
  obtain ⟨⟨verb, reply, after⟩, committed, rfl⟩ := Option.map_eq_some_iff.mp commits
  exact ⟨verb, reply, System.commit_sound committed⟩

theorem committing_reachable (reachable : LedgerReachable .sample system)
    (commits : committing system client = some next)
    : LedgerReachable .sample next := by
  obtain ⟨_, _, step⟩ := committing_step commits
  exact reachable.step step trivial

theorem ready_reachable {verb : Verb} {calls : Nat} (reachable : LedgerReachable .sample system)
    (prepared : ready system client verb calls = some next)
    : LedgerReachable .sample next := by
  obtain ⟨_, begins, played⟩ := Option.bind_eq_some_iff.mp prepared
  exact .play (by decide) trivial
    (reachable.step (System.begin_sound begins) trivial) played

/-- The client commits if that is not stray. -/
def committingOrderly (system : LedgerSystem Bool) (client : Bool) : Option (LedgerSystem Bool) :=
  match system.commit store client with
  | some (verb, _, next) => if strays .sample verb system.committed then none else some next
  | none => none

theorem Burials.commits (earlier : Burials .sample system buried)
    (commits : committingOrderly system client = some next)
    : ∃ more, Burials .sample next (buried ++ more) := by
  unfold committingOrderly at commits
  split at commits
  · rename_i verb reply after committed
    split at commits
    · cases commits
    · rename_i orderly
      cases commits
      refine ⟨_, earlier.step (System.commit_sound committed) ?_⟩
      intro _ _ same
      cases same
      simpa using orderly
  · cases commits

/-- A job for an agent whose jobs are not requeued. -/
def sampleScouting : Verb :=
  .submitJob ⟨"scout", "one", none, none, "user", none, none, 0⟩ 1 10

/-- Its attempt fails in a way that others would retry. -/
def sampleFailing : Verb :=
  .failAttempt 2 ⟨.error, "", some .retryable, none⟩ 40

/-- The attempt is about to be failed while the job is leased. -/
def failingLeased : Option (LedgerSystem Bool) := do
  let system ← ready (.quiet .empty) true sampleScouting 1
  let system ← committingOrderly system true
  let system ← ready system true (.leaseJob "worker" [] 2 30) 8
  let system ← committingOrderly system true
  ready system true sampleFailing 13

theorem failingLeased_burials {system : LedgerSystem Bool} (leased : failingLeased = some system)
    : ∃ buried, Burials .sample system buried := by
  simp only [failingLeased, Option.bind_eq_bind, Option.bind_eq_some_iff] at leased
  obtain ⟨_, submitting, _, submitted, _, leasing, _, leased, failing⟩ := leased
  obtain ⟨_, afterSubmit⟩ := (Burials.start.ready submitting).commits submitted
  obtain ⟨_, afterLease⟩ := (afterSubmit.ready leasing).commits leased
  exact ⟨_, afterLease.ready failing⟩

/-- The failed job dies, with its letter. -/
theorem letters_match_sample
    : ∃ system next : LedgerSystem Bool, ∃ buried,
        failingLeased = some system
        ∧ next.committed.deadLetters.map (fun letter => letter.sourceId) = [1]
        ∧ LettersMatch system.committed next.committed
        ∧ Burials .sample next buried
        ∧ buried.Nodup := by
  have fails
      : (failingLeased.bind
        (fun system => (system.commit store true).map (fun end_ => (system, end_)))).any
          (fun run =>
            run.2.1.buries && !strays .sample run.2.1 run.1.committed
            && run.2.2.2.committed.deadLetters.map (fun letter => letter.sourceId) = [1])
        = true := by
    decide +kernel
  obtain ⟨⟨system, verb, reply, next⟩, ran, lethal⟩ := (Option.any_eq_true ..).mp fails
  simp only [Option.bind_eq_some_iff, Option.map_eq_some_iff, Prod.mk.injEq] at ran
  obtain ⟨system, leased, _, committed, rfl, rfl⟩ := ran
  simp only [Bool.and_eq_true, Bool.not_eq_true', decide_eq_true_eq] at lethal
  obtain ⟨⟨buries, orderly⟩, one⟩ := lethal
  obtain ⟨_, burials⟩ := failingLeased_burials leased
  have step : Step store (code .sample) system true (.committed verb reply) next :=
    System.commit_sound committed
  have later := burials.step step (fun _ _ same => by cases same; exact orderly)
  obtain ⟨matching, once⟩ := @letters_match Bool _ .sample
  exact ⟨system, next, _, leased, one,
    (matching system next true verb reply burials.reachable step buries).mpr orderly, later,
    once next _ later⟩

/-- The attempt is about to be failed after a cancel that began before the lease and ended after it.
-/
def failingCancelled : Option (LedgerSystem Bool) := do
  let system ← ready (.quiet (sampleState [sampleScouting])) false (.cancel 1 20) 1
  let system ← ready system true (.leaseJob "worker" [] 2 30) 8
  let system ← committing system true
  let system ← system.play store [false, true] (List.replicate 4 false)
  let system ← committing system false
  ready system true sampleFailing 10

theorem failingCancelled_reachable {system : LedgerSystem Bool}
    (cancelled : failingCancelled = some system)
    : LedgerReachable .sample system := by
  simp only [failingCancelled, Option.bind_eq_bind, Option.bind_eq_some_iff] at cancelled
  obtain ⟨_, looked, _, leasing, _, leased, _, played, _, cancels, failing⟩ := cancelled
  have quiet
      : LedgerReachable .sample (.quiet (sampleState [sampleScouting]) : LedgerSystem Bool) :=
    (sample_serial (fun _ => True) [sampleScouting] (fun _ _ => trivial)).reachable
      (fun _ => trivial) (fun _ => trivial)
  have overtaken :=
    committing_reachable (ready_reachable (ready_reachable quiet looked) leasing) leased
  have cancelled := committing_reachable
    (.play (by decide) trivial overtaken played) cancels
  exact ready_reachable cancelled failing

/-- The cancel has buried the job already, and `fail_attempt` still writes a letter about it. -/
theorem letter_of_cancelled_job
    : ∃ (system next : LedgerSystem Bool) (reply : Reply),
        LedgerReachable .sample system
        ∧ Step store (code .sample) system true (.committed sampleFailing reply) next
        ∧ system.committed.deadLetters = []
        ∧ next.committed.deadLetters.map (fun letter => letter.sourceId) = [1]
        ∧ movedToDead system.committed next.committed 1 = false
        ∧ ¬LettersMatch system.committed next.committed := by
  have fails
      : (failingCancelled.bind
            (fun system => (system.commit store true).map (fun end_ => (system, end_)))).any
          (fun run =>
            run.2.1 = sampleFailing
            && run.1.committed.deadLetters = []
            && run.2.2.2.committed.deadLetters.map (fun letter => letter.sourceId) = [1]
            && !movedToDead run.1.committed run.2.2.2.committed 1)
        = true := by
    decide +kernel
  obtain ⟨⟨system, verb, reply, next⟩, ran, stray⟩ := (Option.any_eq_true ..).mp fails
  simp only [Option.bind_eq_some_iff, Option.map_eq_some_iff, Prod.mk.injEq] at ran
  obtain ⟨system, cancelled, _, committed, rfl, rfl⟩ := ran
  simp only [Bool.and_eq_true, Bool.not_eq_true', decide_eq_true_eq] at stray
  obtain ⟨⟨⟨rfl, none_⟩, one⟩, still⟩ := stray
  refine ⟨system, next, reply, failingCancelled_reachable cancelled, System.commit_sound committed,
    none_, one, still, ?_⟩
  intro ⟨letters, appended, matched⟩
  rw [none_, List.nil_append] at appended
  have counted := matched 1
  have lettered : 1 ∈ letters.map (fun letter => letter.sourceId) := by
    rw [← appended, one]
    exact List.mem_singleton_self 1
  obtain ⟨letter, mem, about⟩ := List.mem_map.mp lettered
  have absent : letters.countP (fun letter => letter.sourceId = 1) = 0 := by
    rw [counted, still]
    rfl
  exact List.countP_eq_zero.mp absent letter mem (by simpa using about)

end Samples

end Ledger
