import Myndaix.Ledger.Ownership

/-! Replies: as long as nobody queues replies by hand, a finished job has exactly one reply for
the message it came from, and only completing a job adds one.
-/

namespace Ledger

open Interaction Relational Transactions

/-- A reply goes out for this event. -/
def answersEvent (database : Database) (event : Id) (row : Outbound) : Bool :=
  (database.job? row.jobId).any (fun job => job.inboundEventId = some event)

/-- Every finished job of a message has one reply, no other job has any, and a message is
recorded once with at most one job.
-/
structure Replied (database : Database) : Prop where
  exactlyOne
    : ∀ job ∈ database.jobs,
        database.outbound.countP (fun row => row.jobId = job.id)
          = if job.status = .done ∧ job.inboundEventId.isSome = true then 1 else 0
  replyJob : ∀ row ∈ database.outbound, (database.job? row.jobId).isSome = true
  deduped : (database.inboundEvents.map (fun event => event.envelope.dedupeKey)).Nodup

/-- Outbound rows that are only moved along. -/
theorem countP_sent {outbound : List Outbound} {sendRow : Outbound → Outbound} (job : Id)
    (kept : ∀ row, (sendRow row).jobId = row.jobId)
    : (outbound.map sendRow).countP (fun row => row.jobId = job)
      = outbound.countP (fun row => row.jobId = job) :=
  countP_map_eq (fun row _ => by rw [kept])

section Commits

variable {config : Config} {exact : Prop} {verb : Verb} {held : List Key}
  {database later : Database}

/-- A settling commit adds the replies that it owes. -/
theorem Settles.keepsReplies {closeRow : Attempt → Attempt} {moveRow : Job → Job}
    {replies : List Outbound} {letters : List DeadLetter}
    (settles : Settles config exact verb database later closeRow moveRow replies letters)
    (before : Replied database)
    : Replied later where
  exactlyOne := by
    intro moved mem
    rw [settles.jobs] at mem
    obtain ⟨job, inside, rfl⟩ := List.mem_map.mp mem
    rw [settles.outbound, List.countP_append, settles.moveId, settles.moveInbound,
      before.exactlyOne job inside, settles.replied job inside]
    by_cases done : job.status = .done
    · have same : moveRow job = job := by
        rcases settles.moves job inside with same | ⟨running, _⟩
        · exact same
        · simp [done, JobStatus.terminal] at running
      simp [same, done]
    · simp [done]
  replyJob := by
    intro row mem
    rw [settles.outbound] at mem
    rw [settles.job?, Option.isSome_map]
    rcases List.mem_append.mp mem with old | new
    · exact before.replyJob row old
    · exact (settles.replyRows row new).2.1
  deduped := by
    rw [settles.inboundEvents]
    exact before.deduped

/-- Leasing finishes nothing. -/
theorem Claims.keepsReplies {job : Job} {attempt : Attempt}
    (claims : Claims config exact held database later job attempt)
    (consistent : Consistent database) (before : Replied database)
    : Replied later where
  exactlyOne := by
    intro moved mem
    rw [claims.jobs] at mem
    obtain ⟨row, inside, rfl⟩ := List.mem_map.mp mem
    rw [claims.outbound]
    by_cases same : row.id = job.id
    · have own := claims.own consistent inside same
      have none_ := before.exactlyOne row inside
      rw [own, claims.queued] at none_
      simpa [same] using none_
    · simpa [same] using before.exactlyOne row inside
  replyJob := by
    intro row mem
    rw [claims.outbound] at mem
    rw [claims.job?, Option.isSome_map]
    exact before.replyJob row mem
  deduped := by
    rw [claims.inboundEvents]
    exact before.deduped

/-- A new job has no reply, since replies belong to jobs that are there. -/
theorem Admits.keepsReplies {job : Job} {letters : List DeadLetter}
    (admits : Admits held database later job letters) (before : Replied database)
    : Replied later where
  exactlyOne := by
    intro row mem
    rw [admits.jobs] at mem
    rw [admits.outbound]
    rcases List.mem_append.mp mem with old | new
    · exact before.exactlyOne row old
    · rw [List.mem_singleton.mp new]
      have unfinished : job.status ≠ .done := by
        rcases admits.status with ⟨queued, _⟩ | ⟨dead, _⟩
        · simp [queued]
        · simp [dead]
      rw [if_neg (fun finished => unfinished finished.1), List.countP_eq_zero]
      intro reply inside own
      have present := before.replyJob reply inside
      rw [of_decide_eq_true own, admits.fresh] at present
      cases present
  replyJob := by
    intro row mem
    rw [admits.outbound] at mem
    obtain ⟨job, found⟩ := Option.isSome_iff_exists.mp (before.replyJob row mem)
    rw [admits.job? found]
    rfl
  deduped := by
    rw [admits.inboundEvents]
    exact before.deduped

/-- Recording an event adds its key once. -/
theorem Receives.keepsReplies {event : InboundEvent} (receives : Receives database later event)
    (before : Replied database)
    : Replied later := by
  rw [receives.same]
  refine ⟨before.exactlyOne, before.replyJob, ?_⟩
  rw [List.map_append]
  refine List.nodup_append.mpr ⟨before.deduped, List.nodup_singleton _, ?_⟩
  intro key mem other new
  obtain ⟨row, inside, rfl⟩ := List.mem_map.mp mem
  rw [List.mem_singleton.mp new]
  exact receives.deduped row inside

/-- Delivering moves replies along and adds none. -/
theorem Delivers.keepsReplies {sendRow : Outbound → Outbound} {letters : List DeadLetter}
    (delivers : Delivers verb database later sendRow letters) (before : Replied database)
    : Replied later := by
  have kept (row : Outbound) : (sendRow row).jobId = row.jobId :=
    (congrArg Outbound.jobId (delivers.kept row)).trans rfl
  rw [delivers.same]
  refine ⟨fun job inside => ?_, fun moved mem => ?_, before.deduped⟩
  · rw [countP_sent job.id kept]
    exact before.exactlyOne job inside
  · obtain ⟨row, inside, rfl⟩ := List.mem_map.mp mem
    rw [kept]
    exact before.replyJob row inside

/-- The verb queues a reply by hand. -/
def Verb.enqueues : Verb → Bool
  | .enqueueOutbound .. => true
  | _ => false

theorem Commit.keepsReplies (commit : Commit config exact verb held database later)
    (called : verb.enqueues = false) (consistent : Consistent database)
    (before : Replied database)
    : Replied later := by
  cases commit with
  | quiet => exact before
  | settle settles => exact settles.keepsReplies before
  | claim claims => exact claims.keepsReplies consistent before
  | admission admits => exact admits.keepsReplies before
  | ingest receives => exact receives.keepsReplies before
  | deliver outbox delivers => exact delivers.keepsReplies before
  | enqueue enqueues => cases called

/-- Only completing adds a row to the outbox. -/
theorem Commit.addsNoReply (commit : Commit config exact verb held database later)
    (called : verb.enqueues = false) (other : verb.completes = false)
    : later.outbound.map Outbound.id = database.outbound.map Outbound.id := by
  cases commit with
  | quiet => rfl
  | @settle _ _ _ _ _ _ replies _ settles =>
      have none_ : replies = [] := by
        refine List.eq_nil_iff_forall_not_mem.mpr (fun row mem => ?_)
        have completes := (settles.replyRows row mem).1
        rw [other] at completes
        cases completes
      rw [settles.outbound, none_, List.append_nil]
  | claim claims => rw [claims.outbound]
  | admission admits => rw [admits.outbound]
  | ingest receives => rw [receives.same]
  | deliver outbox delivers =>
      rw [delivers.same, List.map_map]
      exact List.map_congr_left (fun row _ =>
        (congrArg Outbound.id (delivers.kept row)).trans rfl)
  | enqueue enqueues => cases called

end Commits

/-- A message has at most one reply: it has at most one job, and that has at most one. -/
theorem Replied.atMostOne {database : Database} (replied : Replied database)
    (holds : Consistent database) (event : Id)
    : database.outbound.countP (answersEvent database event) ≤ 1 := by
  by_cases some_ : ∃ row ∈ database.outbound, answersEvent database event row = true
  · obtain ⟨row, mem, answers⟩ := some_
    obtain ⟨job, found, own⟩ := (Option.any_eq_true _ _).mp answers
    have own : job.inboundEventId = some event := by simpa using own
    have atMost : database.outbound.countP (answersEvent database event)
        ≤ database.outbound.countP (fun row => row.jobId = job.id) := by
      refine List.countP_mono_left (fun other inside answers => ?_)
      obtain ⟨job', found', own'⟩ := (Option.any_eq_true _ _).mp answers
      have same : job' = job :=
        eq_of_countP_le_one (holds.oneJob event) (lookup_mem found') (lookup_mem found)
          (by simpa using own') (by simpa using own)
      rw [← same]
      simpa using (lookup_key found').symm
    refine Nat.le_trans atMost ?_
    rw [replied.exactlyOne job (lookup_mem found)]
    split <;> simp
  · have none_ : database.outbound.countP (answersEvent database event) = 0 := by
      simp only [List.countP_eq_zero]
      exact fun row mem answers => some_ ⟨row, mem, answers⟩
    omega

variable {Client : Type} [DecidableEq Client] {config : Config} {system : LedgerSystem Client}

/-- Runs in which nobody queues a reply by hand. -/
def withoutEnqueue (_ : LedgerSystem Client) (_ : Client) (event : Event LedgerError Verb Reply)
    (_ : LedgerSystem Client)
    : Prop :=
  match event with
  | .began verb => verb.enqueues = false
  | _ => True

/-- In every run without `enqueue_outbound`, with crashes anywhere: a finished job of a message
has exactly one reply and other jobs have none, a message has at most one job and one reply
however often it is ingested, and only `complete_attempt` adds a reply.
-/
theorem replied_exactly_once
    (reachable : Reachable store (code config) withoutEnqueue .empty system)
    : Replied system.committed
      ∧ (∀ event, system.committed.jobs.countP (fun job => job.inboundEventId = some event) ≤ 1)
      ∧ (∀ event,
          system.committed.outbound.countP (answersEvent system.committed event) ≤ 1)
      ∧ ∀ client event next,
          Step store (code config) system client event next
          → (∀ verb reply, event = .committed verb reply → verb.completes = false)
          → next.committed.outbound.map Outbound.id
              = system.committed.outbound.map Outbound.id := by
  have sound := ledger_sound reachable
  have begins {system : LedgerSystem Client} {client : Client} {verb : Verb}
      {next : LedgerSystem Client} (meets : withoutEnqueue system client (.began verb) next)
      : verb.enqueues = false :=
    meets
  have empty : Replied .empty :=
    ⟨by simp [Database.empty], by simp [Database.empty], List.nodup_nil⟩
  have replied : Replied system.committed :=
    ledger_preserves_called Replied empty begins
      (fun called holds _ commit before => commit.keepsReplies called holds before) reachable
  refine ⟨replied, sound.invariant.oneJob, replied.atMostOne sound.invariant, ?_⟩
  intro client event next step other
  cases step with
  | began | acted | aborted | crashed => rfl
  | committed open_ finished =>
      exact (sound.finished open_ finished).2.commit.addsNoReply
        (reachable.called begins open_) (other _ _ rfl)

/-- A message ingested twice, its job completed, the reply delivered. -/
def sampleAnswered : List Verb :=
  sampleLeasing
    ++ [
      Verb.ingestInbound 9 ⟨"telegram", some "chat", "update-1"⟩ "hello",
      .completeAttempt 3 ⟨.ok, "done", none, none⟩ 4 30,
      .claimOutbound "telegram",
      .markOutboundSent 4 "message-7"
    ]

/-- It has one reply. -/
theorem replied_exactly_once_sample
    : (sampleState sampleAnswered).outbound.map Outbound.status = [.sent]
      ∧ (sampleState sampleAnswered).outbound.countP
            (answersEvent (sampleState sampleAnswered) 1)
          ≤ 1 := by
  have reachable : Reachable store (code .sample) withoutEnqueue .empty
      (System.quiet (sampleState sampleAnswered) : LedgerSystem Nat) := by
    refine (sample_serial (fun verb => verb.enqueues = false) sampleAnswered
      (by decide)).reachable (fun called => called) ?_
    intro system client event next other
    cases event with
    | began verb => exact absurd rfl (other verb)
    | _ => trivial
  exact ⟨by decide, (replied_exactly_once reachable).2.2.1 1⟩

end Ledger
