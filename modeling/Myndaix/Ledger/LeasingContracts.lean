import Myndaix.Ledger.Closing

/-! Contracts of the verbs that keep and end a lease: the heartbeat, completion, failure and
cancellation.
-/

namespace Ledger

open Interaction Relational Transactions

variable {config : Config} {exact : Prop} {verb : Verb} {began : Database} {Answer : Type}
  {post : Answer → Place Database Key Change → Prop}

variable {rows : Database} {locks : List Key} {attemptId : Id} {changes : List Change}
  {next : Unit → Txn Answer} {fact : Database → Prop} {attempt : Attempt} {job : Job}

/-- A transaction that changed nothing ends in the quiet commit. -/
theorem Ends.quiet (unfenced : verb.fences = none)
    : Ends config exact verb ⟨rows, locks, []⟩ :=
  ⟨.quiet, fun attemptId fenced => by simp [unfenced] at fenced⟩

theorem Stable.openIn {held : List Key} (locked : Key.attempt attemptId ∈ held)
    : Stable (Rely exact) held (fun rows => OpenIn rows attemptId) := by
  rintro rows later moved ⟨attempt, found, isOpen⟩
  exact ⟨attempt, Stable.attempt locked moved found, isOpen⟩

/-- A lost lease may be reported at any time. -/
theorem lost_rule {message : String} {next : Answer → Txn Reply}
    {post : Reply → Place Database Key Change → Prop} (here : Consistent rows)
    : ((raise (.lostLease message) : Txn Answer) >>= next).Ensures
        (ledgerSetting config exact verb began) post ⟨rows, locks, changes⟩ := by
  rw [raise_bind]
  exact raise_rule Stable.consistent here (fun _ _ _ _ => Or.inl ⟨_, rfl⟩)

/-- The attempt's lease is held in the rows when it is open and its job is live. -/
theorem holdsLease_iff {rows jobs : Database}
    : holdsLease attemptId rows jobs = true
      ↔ ∃ attempt job,
          rows.attempt? attemptId = some attempt
          ∧ attempt.status = .open_
          ∧ jobs.job? attempt.jobId = some job
          ∧ job.status.live = true := by
  simp only [holdsLease, Option.any_eq_true, Bool.and_eq_true, decide_eq_true_eq]
  constructor
  · rintro ⟨attempt, found, isOpen, job, found', live⟩
    exact ⟨attempt, job, found, isOpen, found', live⟩
  · rintro ⟨attempt, job, found, isOpen, found', live⟩
    exact ⟨attempt, found, isOpen, job, found', live⟩

/-- Extending a lease settles nothing. -/
theorem settles_extendLease {now expiresAt : Time} (holds : Consistent rows)
    (isOpen : OpenIn rows attemptId)
    : Settles config exact (.heartbeatAttempt attemptId now) rows
        (Change.apply (fun difference => max difference 0) (.extendLease attemptId expiresAt) rows)
        (fun attempt =>
          if attempt.id = attemptId then { attempt with leaseExpiresAt := expiresAt }
          else attempt)
        id [] [] := by
  obtain ⟨open_, found, isOpen⟩ := isOpen
  have sameStatus (attempt : Attempt)
      : (if attempt.id = attemptId then { attempt with leaseExpiresAt := expiresAt }
          else attempt).status = attempt.status := by
    split <;> rfl
  have none_ (repo : String)
      : freed rows
          (fun attempt =>
            if attempt.id = attemptId then { attempt with leaseExpiresAt := expiresAt }
            else attempt) repo = 0 := by
    simp only [freed, List.countP_eq_zero, sameStatus]
    simp
  exact {
    inboundEvents := rfl
    attempts := by simp [Change.apply, Relational.update]
    jobs := by simp [Change.apply]
    outbound := by simp [Change.apply]
    deadLetters := by simp [Change.apply]
    uniqueRepo := holds.uniqueRepo
    uniqueOutbound := holds.uniqueOutbound
    closeKept := fun attempt => by split <;> exact ⟨rfl, rfl⟩
    moveKept := fun job => rfl
    closes := by
      intro attempt mem closed
      refine if_neg (fun same => closed ?_)
      have own : rows.attempt? attemptId = some attempt :=
        same ▸ lookup_of_mem holds.uniqueAttempt mem
      rw [Option.some.inj (own.symm.trans found)]
      exact isOpen
    moves := fun job _ => Or.inl rfl
    settled := fun _ _ _ _ _ _ => Or.inl rfl
    released := by
      intro attempt mem job _ isOpen closed
      exact absurd ((sameStatus attempt).trans isOpen) closed
    requeued := fun job _ _ => Or.inl rfl
    replied := by
      intro job _
      rw [if_neg (fun finished => finished.1 finished.2.1)]
      rfl
    replyRows := by simp
    buried := by simp [Verb.buries]
    letterRows := by simp
    accounted := fun repo => by
      rw [none_, if_pos rfl]
      rfl
  }

/-- `heartbeat_attempt` extends a lease that is held, and is lost otherwise. -/
theorem heartbeatAttempt_keeps (attemptId : Id) (now : Time)
    : Keeps config exact (.heartbeatAttempt attemptId now) := by
  intro began holds
  simp only [code, heartbeatAttempt, update, Program.bind_assoc]
  refine look_rule Stable.consistent holds (fun snapshot here => ?_)
  refine updateFrom_rule Stable.consistent here (fun _ _ _ => Or.inr (Or.inl (by simp))) ?_
    (Stable.and Stable.consistent (Stable.openIn List.mem_cons_self)) (by simp [Change.keys])
    (fun _ _ => noFloor_of_other (by simp)) ?_ ?_ ?_
  · intro _ rows here renewed
    obtain ⟨attempt, _, found, isOpen, _⟩ := holdsLease_iff.mp renewed
    exact ⟨here, attempt, found, isOpen⟩
  · intro rows here
    refine done_rule (Stable.and Stable.consistent (Stable.openIn List.mem_cons_self)) here ?_
    rintro rows ⟨here, isOpen⟩
    refine ⟨.settle (settles_extendLease here isOpen), ?_⟩
    rintro other fenced
    cases fenced
    exact isOpen
  · exact fun _ rows here _ => lost_rule here
  · exact fun _ rows here => lost_rule here

/-- Giving a slot back locks the counter's row and decrements it, when there is a repository. -/
theorem freeSlot_rule {snapshot : Database} {repoId : Option String}
    (stable : Stable (Rely exact) locks fact) (holds : fact rows)
    (found : ∀ repo, repoId = some repo → (snapshot.repo? repo).isSome = true)
    (present
      : ∀ repo, repoId = some repo → ∀ rows, fact rows → (rows.repo? repo).isSome = true)
    (orderly
      : ∀ repo rows, repoId = some repo → Orderly config verb began rows locks (.repo repo))
    (consistent : ∀ rows, fact rows → Consistent rows)
    (unseeded : changes.filterMap Change.seeds = [])
    (noFloor
      : ∀ repo,
          repoId = some repo
          → ∀ rows, fact rows → Accurate rows → 1 ≤ (store.view rows changes).activeOf repo)
    (continues
      : ∀ rows,
          fact rows
          → (next ()).Ensures (ledgerSetting config exact verb began) post
              ⟨rows, (repoId.map Key.repo).toList ++ locks,
                changes ++ repoId.toList.map (fun repo => Change.decrement repo 1)⟩)
    : (freeSlot snapshot repoId >>= next).Ensures (ledgerSetting config exact verb began) post
        ⟨rows, locks, changes⟩ := by
  cases repoId with
  | none => simpa [freeSlot] using continues rows holds
  | some repo =>
      simp only [freeSlot, Program.bind_assoc]
      refine updateFrom_rule stable holds (fun _ rows _ => orderly repo rows rfl)
        (fun _ rows here _ => here) (Stable.lock (.repo repo) stable) (by simp [Change.keys]) ?_
        continues ?_ ?_
      · rintro rows here other slots same accurate
        cases same
        intro row mem own
        have unique := view_uniqueRepo_of_unseeded (consistent rows here).uniqueRepo unseeded
        rw [← Database.active_of_mem unique mem, own]
        exact noFloor repo rfl rows here accurate
      · intro _ rows here gone
        have still := view_repo_isSome changes (present repo rfl rows here)
        exact absurd (still.symm.trans gone) (by simp)
      · intro gone
        rw [found repo rfl] at gone
        cases gone

/-- An open attempt of a live job counts for its repository. -/
theorem openNow_pos {repo : String} (found : rows.attempt? attempt.id = some attempt)
    (isOpen : attempt.status = .open_) (foundJob : rows.job? attempt.jobId = some job)
    (live : job.status.live = true) (own : job.repoId = some repo)
    : 1 ≤ rows.openNow repo := by
  refine List.countP_pos_iff.mpr ⟨attempt, lookup_mem found, ?_⟩
  simp [Database.liveOn, isOpen, foundJob, own, live]

/-- Closing a list of open attempts by one update. -/
theorem closing_among {ids : List Id} (ended : AttemptEnd) (endedAt : Time) (result : Option Result)
    (errorClass : Option ErrorClass) (nodup : ids.Nodup) (each : ∀ id ∈ ids, OpenIn rows id)
    : Closing rows (closeAmong ids ended endedAt result errorClass) ids where
  nodup := nodup
  each := each
  kept := closeAmong_kept ids ended endedAt result errorClass
  hit := by
    intro row listed
    simp only [closeAmong, listed, if_true]
    exact close_status ended endedAt result errorClass row
  miss := fun row _ unlisted => by simp [closeAmong, unlisted]
  missClosed := fun row _ unlisted _ => by simp [closeAmong, unlisted]

theorem JobStatus.terminal_of_live {status : JobStatus} (live : status.live = true)
    : status.terminal = false := by
  cases status <;> simp_all [JobStatus.live, JobStatus.terminal]

/-- Completing: the attempt closed, the job finished, its reply queued. -/
theorem settles_complete {result : Result} {outboundId : Id} {now : Time} {replies : List Outbound}
    (holds : Consistent rows) (found : rows.attempt? attempt.id = some attempt)
    (isOpen : attempt.status = .open_) (foundJob : rows.job? attempt.jobId = some job)
    (live : job.status.live = true)
    (owed
      : replies.countP (fun row => row.jobId = job.id)
        = if job.inboundEventId.isSome = true then 1 else 0)
    (replyRows
      : ∀ row ∈ replies, row.jobId = job.id ∧ row.status = .pending ∧ row.providerMsgId = none)
    (uniqueOutbound : Unique Outbound.id (rows.outbound ++ replies))
    : Settles config exact (.completeAttempt attempt.id result outboundId now) rows
        (store.view rows
          ([Change.closeAttempts [attempt.id] .ok now (some result) none]
            ++ job.repoId.toList.map (fun repo => Change.decrement repo 1)
            ++ [Change.finishJob job.id result.artifactRef]
            ++ replies.map Change.insertOutbound))
        (closeAmong [attempt.id] .ok now (some result) none)
        (finishAt job.id result.artifactRef) replies [] := by
  have notDone : job.status ≠ .done := by
    intro done
    simp [done, JobStatus.live] at live
  have isOpenIn : ∀ id ∈ [attempt.id], OpenIn rows id := by
    intro id listed
    rw [List.mem_singleton.mp listed]
    exact ⟨attempt, found, isOpen⟩
  refine settles_single holds found foundJob
    (closing_among _ _ _ _ (List.nodup_singleton _) isOpenIn) ?_ ?_ ?_ ?_ ?_ ?_ uniqueOutbound
    (fun _ _ _ accounted => accounted) ?_
  · exact finishAt_kept job.id result.artifactRef
  · exact fun row other => if_neg other
  · simp [finishAt, JobStatus.live]
  · exact Or.inr (JobStatus.terminal_of_live live)
  · simp [finishAt]
  · exact {
      replied := by simpa [finishAt, notDone] using owed
      replyRows := fun row listed => ⟨rfl, replyRows row listed⟩
      buried := by simp [Verb.buries]
      letterRows := by simp
    }
  · simp

/-- A row that the transaction does not see is not committed either. -/
theorem absent_of_view {key : Key}
    (present : key.present rows = true → key.present (store.view rows changes) = true)
    (absent : key.present (store.view rows changes) = false)
    : key.present rows = false := by
  by_contra still
  rw [Bool.not_eq_false] at still
  rw [present still] at absent
  cases absent

theorem outboundEntry_view {id : Id} (present : (Key.outboundEntry id).present rows = true)
    : (Key.outboundEntry id).present (store.view rows changes) = true := by
  obtain ⟨row, found⟩ := Option.isSome_iff_exists.mp present
  obtain ⟨next, found', _⟩ :=
    (view_framed (fun difference => max difference 0) rows changes).outbound found
  exact Option.isSome_iff_exists.mpr ⟨next, found'⟩

/-- A plain insert goes on with its keys, or raises when one is taken. -/
theorem insertNew_rule {keys : List Key} {change : Change} (stable : Stable (Rely exact) locks fact)
    (holds : fact rows)
    (orderly : ∀ rows, fact rows → ∀ key ∈ keys, Orderly config verb began rows locks key)
    (guarded : ∀ key ∈ change.keys, key ∈ keys ++ locks)
    (grows : ∀ repo slots, change ≠ .decrement repo slots)
    (permitted : ∀ rows, fact rows → ∀ id, verb.fences = some id → OpenIn rows id)
    (continues
      : ∀ rows,
          fact rows
          → (∀ key ∈ keys, key.present (store.view rows changes) = false)
          → (next ()).Ensures (ledgerSetting config exact verb began) post
              ⟨rows, keys ++ locks, changes ++ [change]⟩)
    : (insertNew keys change >>= next).Ensures (ledgerSetting config exact verb began) post
        ⟨rows, locks, changes⟩ := by
  simp only [insertNew, Program.bind_assoc]
  refine insert_rule stable holds orderly guarded grows continues (fun rows key here _ _ => ?_)
  simp only [Bool.false_eq_true, if_false, raise_bind]
  exact raise_rule stable here (fun rows here id fenced => Or.inr (permitted rows here id fenced))

/-- Queueing a reply adds one row for a job that came from a transport, and none otherwise. -/
theorem queueReply_rule {snapshot : Database} {outboundId : Id} {text : String}
    (stable : Stable (Rely exact) locks fact) (holds : fact rows)
    (resolves
      : ∀ event, job.inboundEventId = some event → (snapshot.inbound? event).isSome = true)
    (orderly : ∀ rows, Orderly config verb began rows locks (.outboundEntry outboundId))
    (permitted : ∀ rows, fact rows → ∀ id, verb.fences = some id → OpenIn rows id)
    (silent
      : job.inboundEventId = none
        → (next ()).Ensures (ledgerSetting config exact verb began) post
            ⟨rows, locks, changes⟩)
    (queued
      : ∀ event rows,
          job.inboundEventId.isSome = true
          → fact rows
          → (Key.outboundEntry outboundId).present rows = false
          → (next ()).Ensures (ledgerSetting config exact verb began) post
              ⟨rows, [Key.outboundEntry outboundId] ++ locks,
                changes ++ [Change.insertOutbound (reply outboundId job event text)]⟩)
    : (queueReply snapshot outboundId job text >>= next).Ensures
        (ledgerSetting config exact verb began) post ⟨rows, locks, changes⟩ := by
  unfold queueReply
  cases from_ : job.inboundEventId with
  | none => exact silent from_
  | some eventId =>
      obtain ⟨event, found⟩ := Option.isSome_iff_exists.mp (resolves eventId from_)
      simp only [Option.bind_some, found]
      refine insertNew_rule stable holds ?_ (by simp [Change.keys, reply]) (by simp) permitted ?_
      · intro _ _ key mem
        rw [List.mem_singleton.mp mem]
        exact orderly _
      · intro rows here absent
        exact queued event rows (by simp [from_]) here
          (absent_of_view outboundEntry_view (absent _ (List.mem_singleton_self _)))

/-- A transaction that holds an attempt, its job and the job's counter takes index entries last.
-/
theorem orderly_entry {key : Key} (entry : key.kind = 3) (below : ∀ held ∈ locks, held.kind < 3)
    : Orderly config verb began rows locks key :=
  Or.inr (Or.inl (fun held mem => Or.inl (by rw [entry]; exact below held mem)))

/-- `complete_attempt` ends an open attempt of a live job, and is a lost lease otherwise. -/
theorem completeAttempt_keeps (attemptId : Id) (result : Result) (outboundId : Id) (now : Time)
    : Keeps config exact (.completeAttempt attemptId result outboundId now) := by
  intro began holds
  simp only [code, completeAttempt, Program.bind_assoc]
  refine look_rule Stable.consistent holds (fun snapshot consistent => ?_)
  rw [Store.view_nil]
  cases found : snapshot.attempt? attemptId with
  | none => exact lost_rule consistent
  | some attempt =>
      by_cases leased : holdsLease attemptId snapshot snapshot = true
      case neg =>
        simp only [leased, Bool.false_eq_true, if_false]
        exact lost_rule consistent
      simp only [leased, if_true, Program.bind_assoc]
      obtain ⟨attempt', job₀, found', isOpen₀, foundJob₀, _⟩ := holdsLease_iff.mp leased
      obtain rfl := Option.some.inj (found'.symm.trans found)
      -- While the locks are waited for, both rows stay, whatever becomes of their status.
      have waiting (held : List Key) : Stable (Rely exact) held (fun rows =>
            Consistent rows
            ∧ (∃ next, rows.attempt? attemptId = some next ∧ attempt'.Continues next)
            ∧ ∃ next, rows.job? attempt'.jobId = some next ∧ job₀.Continues next) :=
        Stable.consistent.and (Stable.attemptRow.and Stable.jobRow)
      refine lock_rule (waiting []) ⟨consistent, ⟨_, found', Attempt.Continues.refl _⟩, _,
        foundJob₀, Job.Continues.refl _⟩ (fun _ _ => Or.inr (Or.inl (by simp))) ?_
      intro rows here
      refine lock_rule (waiting _) here (fun _ _ => Or.inr (Or.inl (by simp [Before, Key.kind])))
        ?_
      intro rows here
      refine look_rule (waiting _) here ?_
      rintro rows ⟨consistent', ⟨current, foundNow, sameAttempt⟩, job, foundJob, sameJob⟩
      obtain rfl : current.id = attemptId := lookup_key foundNow
      have identity : job.id = attempt'.jobId := lookup_key foundJob
      simp only [Store.view_nil, foundJob]
      by_cases still : holdsLease current.id rows rows = true
      case neg =>
        simp only [still, Bool.false_eq_true, if_false]
        exact lost_rule consistent'
      simp only [still, if_true, Program.bind_assoc]
      obtain ⟨current', job', foundNow', isOpen, foundJob', live⟩ := holdsLease_iff.mp still
      obtain rfl := Option.some.inj (foundNow'.symm.trans foundNow)
      rw [sameAttempt.sameJob] at foundJob'
      obtain rfl := Option.some.inj (foundJob'.symm.trans foundJob)
      rw [← sameAttempt.sameJob] at foundJob identity
      have counted (repo : String) (own : job'.repoId = some repo)
          : (snapshot.repo? repo).isSome = true :=
        consistent.counted attempt' (lookup_mem found') job₀ repo isOpen₀ foundJob₀
          (sameJob.repoId.symm.trans own)
      have resolves (event : Id) (from_ : job'.inboundEventId = some event)
          : (snapshot.inbound? event).isSome = true :=
        consistent.jobInbound job₀ (lookup_mem foundJob₀) event
          (sameJob.inboundEventId.symm.trans from_)
      -- From here on both rows are locked, so they stay as they are.
      have owning (held : List Key) (locked : Key.attempt current'.id ∈ held)
          (lockedJob : Key.job current'.jobId ∈ held)
          : Stable (Rely exact) held (fun rows =>
              Consistent rows ∧ rows.attempt? current'.id = some current'
              ∧ rows.job? current'.jobId = some job') :=
        Stable.consistent.and ((Stable.attempt locked).and (Stable.job lockedJob))
      rw [← sameAttempt.sameJob]
      refine write_rule (owning _ (by simp) (by simp)) ⟨consistent', foundNow, foundJob⟩
        (by simp [Change.keys]) (fun _ _ => noFloor_of_other (by simp)) ?_
      intro rows here
      refine freeSlot_rule (owning _ (by simp) (by simp)) here counted ?_ ?_
        (fun _ here => here.1) (by simp [Change.seeds]) ?_ ?_
      · rintro repo own rows ⟨consistent, foundNow, foundJob⟩
        exact consistent.counted current' (lookup_mem foundNow) job' repo isOpen foundJob own
      · exact fun repo _ own => Or.inr (Or.inl (by simp [Before, Key.kind]))
      · rintro repo own rows ⟨consistent, foundNow, foundJob⟩ accurate
        have present := consistent.counted current' (lookup_mem foundNow) job' repo isOpen
          foundJob own
        rw [activeOf_view (by simp [Change.keys]) present, accurate.active repo]
        exact Int.ofNat_le.mpr (openNow_pos foundNow isOpen foundJob live own)
      · intro rows here
        refine write_rule (owning _ (by simp) (by simp)) here (by simp [Change.keys, identity])
          (fun _ _ => noFloor_of_other (by simp)) ?_
        intro rows here
        -- What is left is the reply; both ways of queueing it end the same way.
        have finish (replies : List Outbound) (rows : Database) (here : Consistent rows
              ∧ rows.attempt? current'.id = some current' ∧ rows.job? current'.jobId = some job')
            (held : List Key)
            (owed : replies.countP (fun row => row.jobId = job'.id)
              = if job'.inboundEventId.isSome = true then 1 else 0)
            (replyRows : ∀ row ∈ replies,
              row.jobId = job'.id ∧ row.status = .pending ∧ row.providerMsgId = none)
            (unique : Unique Outbound.id (rows.outbound ++ replies))
            : Ends config exact (.completeAttempt current'.id result outboundId now)
                ⟨rows, held,
                  [] ++ [Change.closeAttempts [current'.id] .ok now (some result) none]
                    ++ job'.repoId.toList.map (fun repo => Change.decrement repo 1)
                    ++ [Change.finishJob job'.id result.artifactRef]
                    ++ replies.map Change.insertOutbound⟩ := by
          refine ⟨.settle (settles_complete here.1 here.2.1 isOpen here.2.2 live owed replyRows
            unique), ?_⟩
          intro id fenced
          cases fenced
          exact ⟨current', here.2.1, isOpen⟩
        refine queueReply_rule (owning _ (by simp) (by simp)) here resolves
          (fun _ => orderly_entry rfl ?_) ?_ ?_ ?_
        · cases job'.repoId <;> simp [Key.kind]
        · rintro rows ⟨_, foundNow, _⟩ id fenced
          cases fenced
          exact ⟨current', foundNow, isOpen⟩
        · intro silent
          refine done_rule (owning _ (by simp) (by simp)) here (fun rows here => ?_)
          simpa using finish [] rows here _ (by simp [silent]) (by simp)
            (by simpa using here.1.uniqueOutbound)
        · intro event rows fromTransport here absent
          refine done_rule ((owning _ (by simp) (by simp)).and (Stable.absent List.mem_cons_self))
            ⟨here, absent⟩ (fun rows both => ?_)
          obtain ⟨here, absent⟩ := both
          refine finish [reply outboundId job' event result.text] rows here _ ?_ ?_ ?_
          · simp [reply, fromTransport]
          · simp [reply]
          · exact here.1.uniqueOutbound.append
              (by simpa [Key.present, Database.outbound?, reply] using absent)

/-- What routing can decide: never a live status or `done`, `queued` only below the ceiling and
for a requeue-safe agent, and a letter exactly for `dead`.
-/
theorem routeFailure_cases (config : Config) (errorClass : Option ErrorClass) (toAgent : String)
    (attempts : Nat)
    : (∃ reason, routeFailure config errorClass toAgent attempts = (.dead, some reason))
      ∨ (routeFailure config errorClass toAgent attempts = (.queued, none)
        ∧ config.requeueSafe toAgent = true ∧ attempts < maxAttempts)
      ∨ routeFailure config errorClass toAgent attempts = (.failed, none) := by
  unfold routeFailure
  by_cases retryable : errorClass = some .retryable
  · by_cases safe : config.requeueSafe toAgent = true
    · by_cases poisoned : maxAttempts ≤ attempts
      · exact Or.inl ⟨_, (if_pos retryable).trans ((if_pos safe).trans (if_pos poisoned))⟩
      · exact Or.inr (Or.inl ⟨by simp [retryable, safe, poisoned], safe, by omega⟩)
    · exact Or.inl ⟨_, (if_pos retryable).trans (if_neg safe)⟩
  · exact Or.inr (Or.inr (by simp [retryable]))

/-- The rows that failing an attempt adds: a letter for its job if that is to die. -/
theorem ownRows_fail {result : Result} {now : Time} {attempts : Nat} {moved : Job}
    (routed
      : moved.status
        = if job.status.live = true then
            (routeFailure config result.errorClass job.toAgent attempts).1
          else job.status)
    : OwnRows (.failAttempt attemptId result now) job moved []
        ((routeFailure config result.errorClass job.toAgent attempts).2.map
          (DeadLetter.mk job.id)).toList := by
  have fates := routeFailure_cases config result.errorClass job.toAgent attempts
  refine ⟨?_, by simp, ?_, ?_⟩
  · rw [if_neg]
    · rfl
    · rintro ⟨unfinished, finished, _⟩
      rw [routed] at finished
      split at finished
      · rcases fates with ⟨reason, fate⟩ | ⟨fate, _⟩ | fate <;> simp [fate] at finished
      · exact unfinished finished
  · intro _ live
    simp only [live, if_true] at routed
    rw [routed]
    rcases fates with ⟨reason, fate⟩ | ⟨fate, _⟩ | fate <;> simp [fate]
  · intro letter listed
    obtain ⟨reason, _, rfl⟩ := by simpa [Option.mem_toList] using listed
    exact ⟨rfl, rfl, Or.inr rfl⟩

/-- The row of a failed attempt's job: routed when it was live, and left alone otherwise. -/
def routeRow (live : Bool) (jobId : Id) (status : JobStatus) : Job → Job :=
  if live = true then setAmong [jobId] status else id

theorem openIn_one (found : rows.attempt? attempt.id = some attempt)
    (isOpen : attempt.status = .open_)
    : ∀ id ∈ [attempt.id], OpenIn rows id := by
  intro id listed
  rw [List.mem_singleton.mp listed]
  exact ⟨attempt, found, isOpen⟩

/-- Failing: the attempt closed, the job routed if it was live, a letter if it is to die. -/
theorem settles_fail (config : Config) (exact : Prop) (result : Result) (now : Time)
    (holds : Consistent rows) (found : rows.attempt? attempt.id = some attempt)
    (isOpen : attempt.status = .open_) (foundJob : rows.job? attempt.jobId = some job)
    : let fate :=
        routeFailure config result.errorClass job.toAgent (rows.attemptCount job.id)
      Settles config exact (.failAttempt attempt.id result now) rows
        (store.view rows
          ([Change.closeAttempts [attempt.id] .failed now (some result) result.errorClass]
            ++ (if job.status.live = true then [Change.setJobs [job.id] fate.1] else [])
            ++ (fate.2.map (DeadLetter.mk job.id)).toList.map Change.insertDeadLetter
            ++ job.repoId.toList.map (fun repo => Change.decrement repo 1)))
        (closeAmong [attempt.id] .failed now (some result) result.errorClass)
        (routeRow job.status.live job.id fate.1) []
        (fate.2.map (DeadLetter.mk job.id)).toList := by
  intro fate
  have fates := routeFailure_cases config result.errorClass job.toAgent
    (rows.attemptCount job.id)
  have moved : (routeRow job.status.live job.id fate.1 job).status
      = if job.status.live = true then fate.1 else job.status := by
    unfold routeRow
    split <;> simp [setAmong]
  refine settles_single holds found foundJob
    (closing_among _ _ _ _ (List.nodup_singleton _) (openIn_one found isOpen)) ?_ ?_ ?_ ?_ ?_
    (ownRows_fail moved) (by simpa using holds.uniqueOutbound)
    (fun _ _ _ accounted => accounted) ?_
  · intro row
    unfold routeRow
    split
    · exact setAmong_kept _ _ row
    · rfl
  · intro row other
    unfold routeRow
    split
    · exact if_neg (by simpa using other)
    · rfl
  · rw [moved]
    split
    · rcases fates with ⟨reason, same⟩ | ⟨same, _⟩ | same <;> simp [fate, same, JobStatus.live]
    · simpa using ‹¬job.status.live = true›
  · unfold routeRow
    split
    · exact Or.inr (JobStatus.terminal_of_live ‹_›)
    · exact Or.inl rfl
  · intro queued
    by_cases live : job.status.live = true
    · rw [moved, if_pos live] at queued
      rcases fates with ⟨reason, same⟩ | ⟨_, safe, below⟩ | same
      · simp [fate, same] at queued
      · exact Or.inr ⟨safe, below⟩
      · simp [fate, same] at queued
    · exact Or.inl (by simp [routeRow, live])
  · by_cases live : job.status.live = true
    · simp [live, routeRow]
    · simp [live, routeRow]

/-- Closing attempts changes no job's count of attempts. -/
theorem attemptCount_close {ids : List Id} {ended : AttemptEnd} {endedAt : Time}
    {result : Option Result} {errorClass : Option ErrorClass} (job : Id)
    : Database.attemptCount
          {
            rows with
            attempts := rows.attempts.map (closeAmong ids ended endedAt result errorClass)
          } job
      = rows.attemptCount job :=
  countP_map_eq (fun attempt _ => by rw [(closeAmong_kept _ _ _ _ _ attempt).2])

/-- The letter of a job, if it died, is one more change. -/
theorem bury_rule {jobId : Id} {reason : Option String} (stable : Stable (Rely exact) locks fact)
    (holds : fact rows)
    (continues
      : ∀ rows,
          fact rows
          → (next ()).Ensures (ledgerSetting config exact verb began) post
              ⟨rows, locks,
                changes
                  ++ (reason.map (DeadLetter.mk jobId)).toList.map Change.insertDeadLetter⟩)
    : (bury jobId reason >>= next).Ensures (ledgerSetting config exact verb began) post
        ⟨rows, locks, changes⟩ := by
  cases reason with
  | none => simpa [bury] using continues rows holds
  | some reason =>
      exact write_rule stable holds (by simp [Change.keys])
        (fun _ _ => noFloor_of_other (by simp)) continues

/-- What a failed attempt has changed by the end: its row, its job's if that was live, the letter if
the job is to die, and the slot.
-/
structure Fails (config : Config) (attemptId : Id) (result : Result) (now : Time)
    (place : Place Database Key Change) (attempt : Attempt) (job : Job)
    : Prop where
  consistent : Consistent place.committed
  found : place.committed.attempt? attemptId = some attempt
  isOpen : attempt.status = .open_
  foundJob : place.committed.job? attempt.jobId = some job
  changes
    : let fate :=
        routeFailure config result.errorClass job.toAgent (place.committed.attemptCount job.id)
      place.changes
        = [Change.closeAttempts [attemptId] .failed now (some result) result.errorClass]
          ++ (if job.status.live = true then [Change.setJobs [job.id] fate.1] else [])
          ++ (fate.2.map (DeadLetter.mk job.id)).toList.map Change.insertDeadLetter
          ++ job.repoId.toList.map (fun repo => Change.decrement repo 1)

/-- `fail_attempt` ends an open attempt and routes its job, and is a lost lease otherwise. -/
theorem failAttempt_ensures (attemptId : Id) (result : Result) (now : Time) (began : Database)
    (holds : Consistent began)
    : (code config (.failAttempt attemptId result now)).Ensures
        (ledgerSetting config exact (.failAttempt attemptId result now) began)
        (fun _ place => ∃ attempt job, Fails config attemptId result now place attempt job)
        ⟨began, [], []⟩ := by
  simp only [code, failAttempt, Program.bind_assoc]
  refine look_rule Stable.consistent holds (fun snapshot consistent => ?_)
  rw [Store.view_nil]
  cases found : snapshot.attempt? attemptId with
  | none => exact lost_rule consistent
  | some attempt =>
      simp only [Program.bind_assoc]
      have waiting (held : List Key) : Stable (Rely exact) held (fun rows =>
            Consistent rows
            ∧ ∃ next, rows.attempt? attemptId = some next ∧ attempt.Continues next) :=
        Stable.consistent.and Stable.attemptRow
      refine lock_rule (waiting []) ⟨consistent, _, found, Attempt.Continues.refl _⟩
        (fun _ _ => Or.inr (Or.inl (by simp))) (fun rows here => ?_)
      refine look_rule (waiting _) here ?_
      rintro rows ⟨consistent, current, foundNow, _⟩
      obtain rfl : current.id = attemptId := lookup_key foundNow
      simp only [Store.view_nil, foundNow]
      by_cases isOpen : current.status = .open_
      case neg =>
        simp only [isOpen, if_false]
        exact lost_rule consistent
      simp only [isOpen, if_true, Program.bind_assoc]
      have owning (held : List Key) (locked : Key.attempt current.id ∈ held)
          : Stable (Rely exact) held
              (fun rows => Consistent rows ∧ rows.attempt? current.id = some current) :=
        Stable.consistent.and (Stable.attempt locked)
      refine write_rule (owning _ (by simp)) ⟨consistent, foundNow⟩ (by simp [Change.keys])
        (fun _ _ => noFloor_of_other (by simp)) (fun rows here => ?_)
      refine lock_rule (owning _ (by simp)) here
        (fun _ _ => Or.inr (Or.inl (by simp [Before, Key.kind]))) (fun rows here => ?_)
      refine look_rule (owning _ (by simp)) here ?_
      rintro rows ⟨consistent, foundNow⟩
      obtain ⟨job, foundJob⟩ := Option.isSome_iff_exists.mp
        (consistent.attemptJob current (lookup_mem foundNow))
      have identity : job.id = current.jobId := lookup_key foundJob
      have seen (changes : List Change) (rows : Database)
          (same : (store.view rows changes).jobs = rows.jobs)
          : (store.view rows changes).job? current.jobId = rows.job? current.jobId := by
        simp only [Database.job?, same]
      rw [seen _ rows (by simp), foundJob]
      simp only [Program.bind_assoc]
      have locked (held : List Key) (locked : Key.attempt current.id ∈ held)
          (lockedJob : Key.job current.jobId ∈ held)
          : Stable (Rely exact) held (fun rows =>
              Consistent rows ∧ rows.attempt? current.id = some current
              ∧ rows.job? current.jobId = some job) :=
        Stable.consistent.and ((Stable.attempt locked).and (Stable.job lockedJob))
      refine look_rule (locked _ (by simp) (by simp)) ⟨consistent, foundNow, foundJob⟩
        (fun counted here => ?_)
      have count : (store.view counted
            ([] ++ [Change.closeAttempts [current.id] .failed now (some result) result.errorClass])
            ).attemptCount job.id
          = counted.attemptCount job.id := by
        simp [attemptCount_close]
      rw [count]
      have settled (held : List Key) (held₁ : Key.attempt current.id ∈ held)
          (held₂ : Key.job current.jobId ∈ held)
          : Stable (Rely exact) held (fun rows =>
              (Consistent rows ∧ rows.attempt? current.id = some current
              ∧ rows.job? current.jobId = some job)
              ∧ rows.attemptCount job.id = counted.attemptCount job.id) :=
        (locked held held₁ held₂).and (Stable.attemptCount (identity ▸ held₂))
      generalize fateIs : routeFailure config result.errorClass job.toAgent
        (counted.attemptCount job.id) = fate
      -- The letter and the slot come last, whether the job's row was moved or not.
      have tail (moved : Bool) (live : job.status.live = moved) (held : List Key)
          (held₁ : Key.attempt current.id ∈ held) (held₂ : Key.job current.jobId ∈ held)
          (kinds : ∀ key ∈ held, key.kind < 2) (rows : Database)
          (here
            : (Consistent rows ∧ rows.attempt? current.id = some current
              ∧ rows.job? current.jobId = some job)
              ∧ rows.attemptCount job.id = counted.attemptCount job.id)
          : (bury job.id fate.2 >>= fun _ => look >>= fun rows =>
              freeSlot rows job.repoId >>= fun _ => (Program.done .unit : Txn Reply)).Ensures
              (ledgerSetting config exact (.failAttempt current.id result now) began)
              (fun _ place => ∃ attempt job, Fails config current.id result now place attempt job)
              ⟨rows, held,
                [] ++ [Change.closeAttempts [current.id] .failed now
                (some result) result.errorClass]
                  ++ if moved = true then [Change.setJobs [job.id] fate.1] else []⟩ := by
        have present (repo : String) (own : job.repoId = some repo) (rows : Database)
            (here
              : (Consistent rows ∧ rows.attempt? current.id = some current
                ∧ rows.job? current.jobId = some job)
                ∧ rows.attemptCount job.id = counted.attemptCount job.id)
            : (rows.repo? repo).isSome = true :=
          here.1.1.counted current (lookup_mem here.1.2.1) job repo isOpen here.1.2.2 own
        refine bury_rule (settled held held₁ held₂) here (fun rows here => ?_)
        refine look_rule (settled held held₁ held₂) here (fun rows here => ?_)
        refine freeSlot_rule (settled held held₁ held₂) here
          (fun repo own => view_repo_isSome _ (present repo own rows here)) present
          (fun repo _ _ => Or.inr (Or.inl (fun key mem => Or.inl (kinds key mem))))
          (fun _ here => here.1.1) ?_ ?_ ?_
        · simp only [List.filterMap_eq_nil_iff, List.nil_append, List.mem_append,
            List.mem_singleton, List.mem_map]
          rintro change ((rfl | routed) | ⟨letter, _, rfl⟩)
          · rfl
          · split at routed
            · rw [List.mem_singleton.mp routed]
              rfl
            · cases routed
          · rfl
        · intro repo own rows here accurate
          have live' := accurate.unorphaned current (lookup_mem here.1.2.1) job isOpen here.1.2.2
          rw [activeOf_view ?_ (present repo own rows here), accurate.active repo]
          · exact Int.ofNat_le.mpr (openNow_pos here.1.2.1 isOpen here.1.2.2 live' own)
          · simp only [List.nil_append, List.mem_append, List.mem_singleton, List.mem_map]
            rintro change ((rfl | routed) | ⟨letter, _, rfl⟩)
            · simp [Change.keys]
            · split at routed
              · rw [List.mem_singleton.mp routed]
                simp [Change.keys]
              · cases routed
            · simp [Change.keys]
        · intro rows here
          refine done_rule (Stable.mono (settled held held₁ held₂)
            (fun key mem => List.mem_append_right _ mem)) here (fun rows here => ?_)
          refine ⟨current, job, here.1.1, here.1.2.1, isOpen, here.1.2.2, ?_⟩
          simp only [here.2, fateIs, live, List.nil_append]
      have liveIn (rows : Database) (foundJob : rows.job? current.jobId = some job)
          : (((store.view rows
              ([] ++ [Change.closeAttempts [current.id] .failed now
              (some result) result.errorClass])
              ).job? job.id).any fun row => row.status.live) = job.status.live := by
        rw [identity, seen _ rows (by simp), foundJob]
        rfl
      simp only [update, Program.bind_assoc]
      refine look_rule (settled _ (by simp) (by simp)) ⟨here, rfl⟩ (fun snapshot found => ?_)
      refine updateFrom_rule (settled _ (by simp) (by simp)) found
        (fun _ _ _ => Or.inl (by simp [identity])) ?_
        ((settled _ (by simp) (by simp)).and (Stable.const (job.status.live = true)))
        (by simp [Change.keys]) (fun _ _ => noFloor_of_other (by simp)) ?_ ?_ ?_
      · intro live rows here _
        rw [liveIn _ found.1.2.2] at live
        exact ⟨here, live⟩
      · rintro rows ⟨here, live⟩
        exact tail true live _ (by simp) (by simp) (by simp [Key.kind]) rows here
      · intro live rows here gone
        rw [liveIn _ here.1.2.2] at gone
        rw [liveIn _ found.1.2.2, gone] at live
        cases live
      · intro dead rows here
        rw [liveIn _ found.1.2.2] at dead
        simpa using tail false dead _ (by simp) (by simp) (by simp [Key.kind]) rows here

theorem failAttempt_keeps (attemptId : Id) (result : Result) (now : Time)
    : Keeps config exact (.failAttempt attemptId result now) := by
  intro began holds
  refine (failAttempt_ensures attemptId result now began holds).weaken fun _ place fails => ?_
  obtain ⟨attempt, job, fails⟩ := fails
  obtain rfl : attempt.id = attemptId := lookup_key fails.found
  constructor
  · rw [fails.changes]
    exact .settle (settles_fail config exact result now fails.consistent fails.found fails.isOpen
      fails.foundJob)
  · intro id fenced
    cases fenced
    exact ⟨attempt, fails.found, fails.isOpen⟩

end Ledger
