import Myndaix.Interaction.Answers
import Myndaix.Ledger.Verified

/-! Whom a dead letter is about: the job that its own transaction adds, a job that had an attempt
before, or an outbound row. New jobs and outbound rows have the ids that their verbs have drawn.
-/

namespace Ledger

open Interaction Relational Transactions

-- What a transaction may add

/-- The id that a verb draws for a job. -/
def Verb.newJob : Verb → Option Id
  | .submitJob _ id _ => some id
  | _ => none

/-- The id that a verb draws for an outbound row. -/
def Verb.newOutbound : Verb → Option Id
  | .completeAttempt _ _ outboundId _ => some outboundId
  | .enqueueOutbound _ _ id => some id
  | _ => none

def Verb.leases : Verb → Bool
  | .leaseJob .. => true
  | _ => false

/-- An attempt's job or an outbound row has this id. -/
def About (rows : Database) (source : Id) : Prop :=
  (∃ attempt ∈ rows.attempts, attempt.jobId = source) ∨ ∃ row ∈ rows.outbound, row.id = source

/-- What the verb may add without looking at anything. -/
def Verb.mayChange (verb : Verb) : Change → Prop
  | .insertJob row => verb.newJob = some row.id
  | .insertOutbound row => verb.newOutbound = some row.id
  | .insertDeadLetter letter => verb.newJob = some letter.sourceId
  | .insertAttempt _ => verb.leases = true
  | _ => True

/-- A change of the verb's own, or a letter about something that is there. -/
def Addressed (verb : Verb) (rows : Database) (change : Change) : Prop :=
  verb.mayChange change
  ∨ ∃ letter, change = .insertDeadLetter letter ∧ About rows letter.sourceId

def Addressing (verb : Verb) (place : Place Database Key Change) : Prop :=
  ∀ change ∈ place.changes, Addressed verb place.committed change

/-- The verb may ask for its own changes, and for letters about these. -/
def Verb.mayAsk (verb : Verb) (sources : Id → Prop) : Action Key Change LedgerError → Prop
  | .insert _ change | .write change =>
      verb.mayChange change
      ∨ ∃ letter, change = .insertDeadLetter letter ∧ sources letter.sourceId
  | _ => True

/-- What a change adds that a letter can be about. -/
def Change.about : Change → Option Id
  | .insertAttempt row => some row.jobId
  | .insertOutbound row => some row.id
  | _ => none

-- What letters are about stays

variable {change : Change}

section About

variable {rows : Database} {source : Id}

/-- Attempts and outbound rows keep their jobs and ids, and only their inserts add any. -/
theorem about_apply
    : About (store.apply change rows) source
      ↔ About rows source ∨ change.about = some source := by
  have attempts (selected : Attempt → Bool) (update : Attempt → Attempt)
      (kept : ∀ row, (update row).jobId = row.jobId)
      : (∃ row ∈ Relational.update selected update rows.attempts, row.jobId = source)
        ↔ ∃ row ∈ rows.attempts, row.jobId = source :=
    exists_mem_update Attempt.jobId selected update kept
  have outbound (selected : Outbound → Bool) (update : Outbound → Outbound)
      (kept : ∀ row, (update row).id = row.id)
      : (∃ row ∈ Relational.update selected update rows.outbound, row.id = source)
        ↔ ∃ row ∈ rows.outbound, row.id = source :=
    exists_mem_update Outbound.id selected update kept
  cases change with
  | insertAttempt row =>
      simp [About, store, storeWith, Change.apply, Change.about, or_and_right, exists_or,
        or_right_comm]
  | insertOutbound row =>
      simp [About, store, storeWith, Change.apply, Change.about, or_and_right, exists_or,
        or_assoc]
  | closeAttempts ids ended endedAt result errorClass =>
      simp [About, store, storeWith, Change.apply, Change.about,
        attempts _ (Attempt.close ended endedAt result errorClass) fun _ => rfl]
  | extendLease id expiresAt =>
      simp [About, store, storeWith, Change.apply, Change.about,
        attempts _ (fun row => { row with leaseExpiresAt := expiresAt }) fun _ => rfl]
  | claimOutbound id =>
      simp [About, store, storeWith, Change.apply, Change.about,
        outbound _ (fun row => { row with status := .leased, tries := row.tries + 1 })
          fun _ => rfl]
  | setOutbound id status =>
      simp [About, store, storeWith, Change.apply, Change.about,
        outbound _ (fun row => { row with status := status }) fun _ => rfl]
  | sendOutbound id providerMsgId =>
      simp [About, store, storeWith, Change.apply, Change.about,
        outbound _ (fun row => { row with status := .sent, providerMsgId := some providerMsgId })
          fun _ => rfl]
  | _ => simp [About, store, storeWith, Change.apply, Change.about]

/-- By induction on the changes. -/
theorem about_view (changes : List Change)
    : About (store.view rows changes) source
      ↔ About rows source ∨ ∃ change ∈ changes, change.about = some source := by
  induction changes generalizing rows with
  | nil => simp
  | cons change changes ih => rw [Store.view_cons, ih, about_apply]; simp [or_assoc]

/-- A verb that adds no attempt and no outbound row sees only what was there. -/
theorem about_committed {verb : Verb} {place : Place Database Key Change}
    (addressing : Addressing verb place) (leases : verb.leases = false)
    (outbound : verb.newOutbound = none) (about : About (store.viewAt place) source)
    : About place.committed source := by
  rcases (about_view place.changes).mp about with there | ⟨change, mem, added⟩
  · exact there
  · rcases addressing change mem with own | ⟨letter, rfl, _⟩
    · cases change with
      | insertAttempt row =>
          simp only [Verb.mayChange, leases] at own
          cases own
      | insertOutbound row =>
          simp only [Verb.mayChange, outbound] at own
          cases own
      | _ => cases added
    · cases added

end About

-- The contract

/-- Whatever others commit, what a letter can be about stays. -/
abbrev addressing : Setting (Action Key Change LedgerError) (Action.Answer Database)
    (Place Database Key Change) :=
  store.amid (fun _ before after => ∀ source, About before source → About after source)
    (fun _ _ _ about => about) (fun first second source about => second source (first source about))
    (fun _ _ => True)

/-- Whatever the answers, the transaction asks for nothing but what the verb may ask for. -/
abbrev Asks (verb : Verb) (sources : Id → Prop) {Answer : Type} (transaction : Txn Answer)
    : Prop :=
  transaction.Ensures (Program.anywhere (verb.mayAsk sources)) (fun _ _ => True) ()

section Contract

variable {verb : Verb} {sources : Id → Prop} {Answer Other : Type}
  {place later : Place Database Key Change}

theorem Addressing.interfere (holds : Addressing verb place)
    (moved : addressing.interferes place later)
    : Addressing verb later := by
  obtain ⟨_, changes, stays⟩ := moved
  rw [Addressing, changes]
  intro change mem
  refine (holds change mem).imp_right fun letter => ?_
  obtain ⟨letter, same, about⟩ := letter
  exact ⟨letter, same, stays _ about⟩

theorem Addressing.ends {answer : Answer} (holds : Addressing verb place)
    : (pure answer : Txn Answer).Ensures addressing (fun _ later => Addressing verb later)
        place :=
  Program.Ensures.done fun _ moved => holds.interfere moved

theorem Addressing.step {action : Action Key Change LedgerError}
    {answer : action.Answer Database} (holds : Addressing verb place)
    (about : ∀ source, sources source → About place.committed source)
    (allowed : verb.mayAsk sources action) (answered : store.answers action place answer later)
    : Addressing verb later := by
  have added {change : Change}
      (allowed
        : verb.mayChange change
          ∨ ∃ letter, change = .insertDeadLetter letter ∧ sources letter.sourceId)
      : ∀ other ∈ place.changes ++ [change], Addressed verb place.committed other := by
    intro other mem
    rcases List.mem_append.mp mem with old | new
    · exact holds other old
    · rw [List.mem_singleton.mp new]
      refine allowed.imp_right fun letter => ?_
      obtain ⟨letter, same, source⟩ := letter
      exact ⟨letter, same, about _ source⟩
  cases action with
  | look => exact answered.2 ▸ holds
  | lock key => exact answered ▸ holds
  | tryLock key =>
      cases answered
      split
      · exact holds
      · exact holds
  | insert keys change =>
      obtain ⟨_, rfl⟩ := answered
      split
      · exact added allowed
      · exact holds
  | write change => exact answered ▸ added allowed
  | unlock => exact answered ▸ holds
  | raise error => exact answered.elim

/-- What asks for nothing else adds nothing else. -/
theorem Asks.ensures {transaction : Txn Answer} (asks : Asks verb sources transaction)
    (holds : Addressing verb place)
    (about : ∀ source, sources source → About place.committed source)
    : transaction.Ensures addressing (fun _ later => Addressing verb later) place := by
  have both
      : transaction.Ensures addressing
          (fun _ later =>
            True ∧ Addressing verb later
            ∧ ∀ source, sources source → About later.committed source) place := by
    refine asks.within (fun place =>
      Addressing verb place ∧ ∀ source, sources source → About place.committed source)
      ?_ (fun _ _ => trivial) ?_ ⟨holds, about⟩
    · intro place later both moved
      exact ⟨both.1.interfere moved, fun source known => moved.2.2 source (both.2 source known)⟩
    · intro action place answer later allowed both answered
      have responded : store.answers action place answer later := answered
      refine ⟨both.1.step both.2 allowed responded, ?_⟩
      rw [store.answers_committed responded]
      exact both.2
  exact both.weaken fun _ _ ended => ended.2.1

/-- A look, after which letters may be about what was seen. -/
theorem look_asks {next : Database → Txn Answer} (leases : verb.leases = false)
    (outbound : verb.newOutbound = none) (holds : Addressing verb place)
    (continues : ∀ rows, Asks verb (About rows) (next rows))
    : (look >>= next).Ensures addressing (fun _ later => Addressing verb later) place := by
  refine Program.Ensures.call fun now moved => ⟨trivial, fun rows after answered => ?_⟩
  obtain ⟨rfl, rfl⟩ := answered
  have here := holds.interfere moved
  exact (continues _).ensures here fun source about => about_committed here leases outbound about

end Contract

-- Statements

section Statements

variable {verb : Verb} {sources : Id → Prop} {Answer Item : Type}

theorem Asks.bind {Other : Type} {transaction : Txn Other} {next : Other → Txn Answer}
    (first : Asks verb sources transaction) (second : ∀ answer, Asks verb sources (next answer))
    : Asks verb sources (transaction >>= next) :=
  Program.Ensures.bind first fun answer _ _ => second answer

theorem asks_pure (answer : Answer) : Asks verb sources (pure answer) :=
  Program.Ensures.returns trivial

theorem asks_call {action : Action Key Change LedgerError} (may : verb.mayAsk sources action)
    : Asks verb sources (.call action .done) :=
  Program.Ensures.call fun _ _ => ⟨may, fun _ _ _ => asks_pure _⟩

theorem asks_look : Asks verb sources look :=
  asks_call trivial

theorem asks_lock (key : Key) : Asks verb sources (lock key) :=
  asks_call trivial

theorem asks_unlock : Asks verb sources unlock :=
  asks_call trivial

theorem asks_raise (error : LedgerError) : Asks verb sources (raise error : Txn Answer) :=
  Program.Ensures.call fun _ _ => ⟨trivial, fun impossible => nomatch impossible⟩

theorem asks_insert (keys : List Key) (may : verb.mayChange change)
    : Asks verb sources (insert keys change) :=
  asks_call (.inl may)

theorem asks_write (may : verb.mayChange change)
    : Asks verb sources (write change) :=
  asks_call (.inl may)

theorem asks_letter {letter : DeadLetter} (about : sources letter.sourceId)
    : Asks verb sources (write (.insertDeadLetter letter)) :=
  asks_call (.inr ⟨letter, rfl, about⟩)

theorem asks_insertNew (keys : List Key) (may : verb.mayChange change)
    : Asks verb sources (insertNew keys change) := by
  refine (asks_insert keys may).bind fun added => ?_
  split
  · exact asks_pure _
  · exact asks_raise _

theorem asks_updateFrom (snapshot : Database) (key : Key) (condition : Database → Bool)
    (may : verb.mayChange change)
    : Asks verb sources (updateFrom snapshot key condition change) := by
  unfold updateFrom
  split
  · refine (asks_lock key).bind fun _ => asks_look.bind fun latest => ?_
    split
    · exact (asks_write may).bind fun _ => asks_pure _
    · exact asks_pure _
  · exact asks_pure _

theorem asks_update (key : Key) (condition : Database → Database → Bool)
    (may : verb.mayChange change)
    : Asks verb sources (update key condition change) :=
  asks_look.bind fun snapshot => asks_updateFrom snapshot key (condition snapshot) may

theorem asks_updateRepo (repo : String) (may : verb.mayChange change)
    : Asks verb sources (updateRepo repo change) :=
  asks_update _ _ may

theorem asks_lockRepo (repo : String) : Asks verb sources (lockRepo repo) := by
  refine asks_look.bind fun snapshot => ?_
  split
  · exact asks_lock _
  · exact asks_pure _

theorem asks_lockJob (id : Id) : Asks verb sources (lockJob id) := by
  refine asks_look.bind fun snapshot => ?_
  split
  · exact (asks_lock _).bind fun _ => asks_look.bind fun latest => asks_pure _
  · exact asks_pure _

/-- By induction on the keys. -/
theorem asks_tryLocks (keys : List Key) : Asks verb sources (tryLocks keys) := by
  induction keys with
  | nil => exact asks_pure _
  | cons key keys ih =>
      refine Asks.bind (asks_call trivial) fun taken => ?_
      split
      · exact ih
      · exact asks_pure _

/-- A loop asks what its rounds ask, by induction on the items. -/
theorem asks_fold {Accumulated : Type} {body : Accumulated → Item → Txn Accumulated}
    {items : List Item}
    (round : ∀ accumulated, ∀ item ∈ items, Asks verb sources (body accumulated item))
    (accumulated : Accumulated)
    : Asks verb sources (Program.fold body accumulated items) := by
  induction items generalizing accumulated with
  | nil => exact asks_pure _
  | cons item items ih =>
      refine (round accumulated item List.mem_cons_self).bind fun next => ?_
      exact ih (fun accumulated item mem =>
        round accumulated item (List.mem_cons_of_mem _ mem)) next

/-- A select asks for locks only, and picks among its rows. -/
theorem asks_selectForUpdate (keys : Item → List Key) (condition : Database → Item → Bool)
    (limit : Nat) (items : List Item)
    : (selectForUpdate keys condition limit items).Ensures (Program.anywhere (verb.mayAsk sources))
        (fun picked _ => ∀ item ∈ picked, item ∈ items) () := by
  have among
      : (selectForUpdate keys condition limit items).Ensures
        (Program.anywhere (verb.mayAsk sources))
          (fun picked _ =>
            (∀ item ∈ picked, item ∈ items) ∧ ∀ item ∈ ([] : List Item), item ∈ items)
          () := by
    refine Program.Ensures.fold
      (fun picked rest _ => (∀ item ∈ picked, item ∈ items) ∧ ∀ item ∈ rest, item ∈ items)
      (fun both _ => both) ?_ ⟨by simp, fun _ mem => mem⟩
    intro picked item rest state both
    have skipped : (∀ item ∈ picked, item ∈ items) ∧ ∀ item ∈ rest, item ∈ items :=
      ⟨both.1, fun other mem => both.2 other (List.mem_cons_of_mem _ mem)⟩
    unfold selectRow
    split
    · refine Program.Ensures.bind (asks_tryLocks (keys item)) fun taken _ _ => ?_
      split
      · refine Program.Ensures.bind asks_look fun latest _ _ => ?_
        split
        · refine Program.Ensures.returns ⟨fun other mem => ?_, skipped.2⟩
          rcases List.mem_append.mp mem with old | new
          · exact both.1 other old
          · rw [List.mem_singleton.mp new]
            exact both.2 item List.mem_cons_self
        · exact Program.Ensures.returns skipped
      · exact Program.Ensures.returns skipped
    · exact Program.Ensures.returns skipped
  exact among.weaken fun _ _ both => both.1

end Statements

-- Verbs

section Verbs

variable {config : Config} {sources : Id → Prop}

variable {verb : Verb} {place : Place Database Key Change}

theorem asks_claim (leases : verb.leases = true) (jobId attemptId : Id) (workerId : String)
    (now : Time)
    : Asks verb sources (claim jobId attemptId workerId now) := by
  refine Asks.bind (asks_update _ _ trivial) fun leased => ?_
  split
  · exact Asks.bind (asks_insertNew _ leases) fun _ => asks_pure _
  · exact asks_pure _

theorem asks_leaseRound (workerId : String) (skipRepos : List String) (attemptId : Id) (now : Time)
    : Asks (.leaseJob workerId skipRepos attemptId now) sources
        (leaseRound config workerId skipRepos attemptId now) := by
  have picks : Asks (.leaseJob workerId skipRepos attemptId now) sources (pick config skipRepos) :=
    asks_look.bind fun snapshot =>
      Program.Ensures.bind (asks_selectForUpdate _ _ _ _) fun picked _ _ => asks_pure _
  refine picks.bind fun picked => ?_
  cases picked with
  | none => exact asks_pure _
  | some job =>
      dsimp only
      split
      · refine Asks.bind (asks_claim rfl _ _ _ _) fun claimed => ?_
        split
        · exact asks_pure _
        · exact asks_pure _
      · rename_i repo _
        refine Asks.bind (asks_insert _ trivial) fun _ => (asks_lockRepo repo).bind fun _ => ?_
        refine asks_look.bind fun rows => ?_
        dsimp only
        split
        · exact Asks.bind (asks_updateRepo _ trivial) fun _ => asks_pure _
        · refine Asks.bind (asks_claim rfl _ _ _ _) fun claimed => ?_
          split
          · exact Asks.bind (asks_updateRepo _ trivial) fun _ => asks_pure _
          · exact asks_pure _

theorem asks_requireInbound (inbound : Option Id)
    : Asks verb sources (requireInbound inbound) := by
  cases inbound with
  | none => exact asks_pure _
  | some event =>
      refine asks_look.bind fun rows => ?_
      split
      · exact asks_pure _
      · exact asks_raise _

theorem asks_submitJob (submission : Submission) (id : Id) (now : Time)
    : Asks (.submitJob submission id now) sources (submitJob submission id now) := by
  have queues {job : Job} (own : job.id = id)
      : Asks (.submitJob submission id now) sources (insertQueued job) := by
    refine Asks.bind (asks_insert _ (congrArg some own.symm)) fun added => ?_
    split
    · exact (asks_requireInbound _).bind fun _ => asks_pure _
    · refine asks_look.bind fun rows => ?_
      split
      · exact asks_pure _
      · exact asks_pure _
  unfold submitJob
  split
  · exact queues rfl
  · refine (asks_lockJob _).bind fun parent => ?_
    split
    · exact asks_raise _
    · refine asks_look.bind fun rows => ?_
      dsimp only
      split
      · refine Asks.bind (asks_insertNew _ rfl) fun _ => (asks_requireInbound _).bind fun _ => ?_
        exact Asks.bind (asks_write rfl) fun _ => asks_pure _
      · exact queues rfl

theorem asks_freeSlot (snapshot : Database) (repoId : Option String)
    : Asks verb sources (freeSlot snapshot repoId) := by
  cases repoId with
  | none => exact asks_pure _
  | some repo => exact Asks.bind (asks_updateFrom _ _ _ trivial) fun _ => asks_pure _

theorem asks_completeAttempt (attemptId : Id) (result : Result) (outboundId : Id) (now : Time)
    : Asks (.completeAttempt attemptId result outboundId now) sources
        (completeAttempt attemptId result outboundId now) := by
  refine asks_look.bind fun snapshot => ?_
  split
  · exact asks_raise _
  · split
    · refine (asks_lock _).bind fun _ => (asks_lock _).bind fun _ => asks_look.bind fun latest => ?_
      split
      · exact asks_raise _
      · split
        · refine Asks.bind (asks_write trivial) fun _ => Asks.bind (asks_freeSlot _ _) fun _ => ?_
          refine Asks.bind (asks_write trivial) fun _ => ?_
          unfold queueReply
          split
          · exact asks_pure _
          · exact asks_insertNew _ rfl
        · exact asks_raise _
    · exact asks_raise _

theorem asks_cancel (jobId : Id) (now : Time)
    : Asks (.cancel jobId now) sources (cancel jobId now) := by
  have closes : Asks (.cancel jobId now) sources (closeOpenAttempts jobId now) :=
    asks_look.bind fun snapshot => asks_fold (fun closed attempt _ => by
      exact Asks.bind (asks_updateFrom _ _ _ trivial) fun _ => asks_pure _) _
  refine closes.bind fun closed => Asks.bind (asks_update _ _ trivial) fun _ => ?_
  split
  · exact asks_look.bind fun rows => asks_freeSlot _ _
  · exact asks_pure _

theorem asks_getAttemptJob (attemptId : Id)
    : Asks verb sources (getAttemptJob attemptId) := by
  have lives (jobId : Id) : Asks verb sources (getAttemptJob.lockLive jobId) := by
    refine asks_look.bind fun snapshot => ?_
    split
    · exact (asks_lock _).bind fun _ => asks_look.bind fun latest => asks_pure _
    · exact asks_pure _
  refine asks_look.bind fun snapshot => ?_
  split
  · refine (asks_lock _).bind fun _ => asks_look.bind fun latest => ?_
    split
    · exact asks_pure _
    · split
      · exact lives _
      · exact asks_pure _
  · exact asks_pure _

theorem asks_closeOrphans (order : List (Attempt × Job) → List (Attempt × Job)) (now : Time)
    : Asks verb sources (closeOrphans order now) := by
  refine asks_look.bind fun _ => ?_
  refine Program.Ensures.bind (asks_selectForUpdate _ _ _ _) fun _ _ _ => ?_
  exact Asks.bind (asks_write trivial) fun _ => asks_pure _

theorem asks_reconcile (now : Time)
    : Asks (.reconcileRepoConcurrency now) sources (reconcileRepoConcurrency config now) := by
  have locks : Asks (.reconcileRepoConcurrency now) sources (lockRepos config) :=
    asks_look.bind fun rows => asks_fold (fun _ _ _ => asks_lock _) _
  have upserts : Asks (.reconcileRepoConcurrency now) sources (upsertCounts config) := by
    refine asks_look.bind fun rows => Asks.bind (asks_fold (fun _ repo _ => ?_) _)
      fun _ => asks_pure _
    refine Asks.bind (asks_insert _ trivial) fun added => ?_
    split
    · exact asks_pure _
    · exact (asks_lock _).bind fun _ => asks_write trivial
  have zeroes : Asks (.reconcileRepoConcurrency now) sources (zeroCounts config) := by
    refine asks_look.bind fun rows => asks_fold (fun _ repo _ => ?_) _
    exact Asks.bind (asks_updateFrom _ _ _ trivial) fun _ => asks_pure _
  exact (asks_closeOrphans _ _).bind fun _ => locks.bind fun _ => upserts.bind fun healed =>
    zeroes.bind fun _ => asks_pure _

theorem asks_enqueueOutbound (jobId : Id) (body : String) (id : Id)
    : Asks (.enqueueOutbound jobId body id) sources (enqueueOutbound jobId body id) := by
  refine asks_look.bind fun snapshot => ?_
  split
  · exact asks_raise _
  · split
    · exact asks_raise _
    · exact Asks.bind (asks_insertNew _ rfl) fun _ => asks_pure _

theorem asks_claimOutbound (transport : String)
    : Asks (.claimOutbound transport) sources (claimOutbound transport) := by
  refine asks_look.bind fun snapshot => ?_
  refine Program.Ensures.bind (asks_selectForUpdate _ _ _ _) fun picked _ _ => ?_
  split
  · exact asks_pure _
  · exact Asks.bind (asks_write trivial) fun _ => asks_pure _

/-- The row with this id is one that letters can be about. -/
theorem inStatus_about {id : Id} {status : OutboundStatus} {rows : Database}
    (found : inStatus id status rows = true)
    : About rows id := by
  simp only [inStatus, Option.any_eq_true] at found
  obtain ⟨row, there, _⟩ := found
  exact .inr ⟨row, lookup_mem there, lookup_key there⟩

theorem markSentFrom_addressed (leases : verb.leases = false) (outbound : verb.newOutbound = none)
    (from_ : OutboundStatus) (id : Id) (providerMsgId : String) (holds : Addressing verb place)
    : (markSentFrom from_ id providerMsgId).Ensures addressing
        (fun _ later => Addressing verb later) place := by
  refine look_asks leases outbound holds fun snapshot => ?_
  split
  · rename_i found
    refine (asks_lock _).bind fun _ => asks_look.bind fun latest => ?_
    split
    · refine Asks.bind (asks_insert _ trivial) fun sent => ?_
      split
      · exact asks_pure _
      · refine asks_unlock.bind fun _ => Asks.bind (asks_update _ _ trivial) fun _ => ?_
        exact Asks.bind (asks_letter (inStatus_about found)) fun _ => asks_pure _
    · exact asks_pure _
  · exact asks_pure _

theorem markOutboundFailed_addressed {id : Id} (holds : Addressing (.markOutboundFailed id) place)
    : (markOutboundFailed id).Ensures addressing
        (fun _ later => Addressing (.markOutboundFailed id) later) place := by
  refine look_asks rfl rfl holds fun snapshot => ?_
  split
  · rename_i found
    refine (asks_lock _).bind fun _ => asks_look.bind fun latest => ?_
    split
    · exact asks_pure _
    · split
      · refine Asks.bind (asks_write trivial) fun _ => ?_
        exact asks_letter (inStatus_about found)
      · exact asks_write trivial
  · exact asks_pure _

theorem failAttempt_addressed {attemptId : Id} {result : Result} {now : Time}
    (holds : Addressing (.failAttempt attemptId result now) place)
    : (failAttempt config attemptId result now).Ensures addressing
        (fun _ later => Addressing (.failAttempt attemptId result now) later) place := by
  have nothing {Answer : Type} {transaction : Txn Answer} {place : Place Database Key Change}
      (asks
        : Asks (.failAttempt attemptId result now) (fun _ => False) transaction)
      (holds : Addressing (.failAttempt attemptId result now) place)
      : transaction.Ensures addressing
          (fun _ later => Addressing (.failAttempt attemptId result now) later) place :=
    asks.ensures holds fun _ impossible => impossible.elim
  refine Program.Ensures.bind (nothing asks_look holds) fun snapshot place holds => ?_
  split
  · exact nothing (asks_raise _) holds
  · refine Program.Ensures.bind (nothing (asks_lock _) holds) fun _ place holds => ?_
    refine look_asks rfl rfl holds fun latest => ?_
    split
    · exact asks_raise _
    · rename_i attempt found
      split
      · refine Asks.bind (asks_write trivial) fun _ => (asks_lock _).bind fun _ => ?_
        refine asks_look.bind fun rows => ?_
        split
        · exact asks_raise _
        · rename_i job ofAttempt
          have about : About latest job.id :=
            .inl ⟨attempt, lookup_mem found, (lookup_key ofAttempt).symm⟩
          refine asks_look.bind fun rows => Asks.bind (asks_update _ _ trivial) fun _ => ?_
          refine Asks.bind ?_ fun _ => asks_look.bind fun rows => asks_freeSlot _ _
          cases (routeFailure config result.errorClass job.toAgent
            (rows.attemptCount job.id)).2 with
          | none => exact asks_pure _
          | some reason => exact asks_letter about
      · exact asks_raise _

/-- The letters of a batch are about its jobs, by induction on the batch. -/
theorem asks_decideFates (batch : List (Attempt × Job))
    : (decideFates config batch).Ensures (Program.anywhere (verb.mayAsk sources))
        (fun fates _ => ∀ letter ∈ fates.dead, ∃ row ∈ batch, row.2.id = letter.sourceId) () := by
  have decided
      : (decideFates config batch).Ensures (Program.anywhere (verb.mayAsk sources))
          (fun fates _ =>
            (∀ letter ∈ fates.dead, ∃ row ∈ batch, row.2.id = letter.sourceId)
            ∧ ∀ row ∈ ([] : List (Attempt × Job)), row ∈ batch) () := by
    refine Program.Ensures.fold
      (fun (fates : Fates) (rest : List (Attempt × Job)) _ =>
        (∀ letter ∈ fates.dead, ∃ row ∈ batch, row.2.id = letter.sourceId)
        ∧ ∀ row ∈ rest, row ∈ batch)
      (fun both _ => both) ?_ ⟨by simp, fun _ mem => mem⟩
    intro fates row rest state both
    have left : ∀ other ∈ rest, other ∈ batch :=
      fun other mem => both.2 other (List.mem_cons_of_mem _ mem)
    refine Program.Ensures.bind asks_look fun rows _ _ => ?_
    split
    · exact Program.Ensures.returns ⟨both.1, left⟩
    · refine Program.Ensures.returns ⟨fun letter mem => ?_, left⟩
      rcases List.mem_append.mp mem with old | new
      · exact both.1 letter old
      · rw [List.mem_singleton.mp new]
        exact ⟨row, both.2 row List.mem_cons_self, rfl⟩
  exact decided.weaken fun _ _ both => both.1

theorem asks_moveLive (ids : List Id) (status : JobStatus)
    : Asks verb sources (moveLive ids status) :=
  asks_look.bind fun _ => asks_write trivial

theorem reclaimExpired_addressed {healedAt now : Time}
    (holds : Addressing (.reclaimExpired healedAt now) place)
    : (reclaimExpired config healedAt now).Ensures addressing
        (fun _ later => Addressing (.reclaimExpired healedAt now) later) place := by
  have asks
      : Asks (.reclaimExpired healedAt now) (fun _ => False)
          (closeOrphans config.scan healedAt) :=
    asks_closeOrphans _ _
  refine Program.Ensures.bind (asks.ensures holds fun _ impossible => impossible.elim)
    fun orphans place holds => ?_
  unfold closeExpired
  rw [Program.bind_assoc]
  refine look_asks rfl rfl holds fun snapshot => ?_
  rw [Program.bind_assoc]
  refine Program.Ensures.bind (asks_selectForUpdate _ _ _ _) fun batch _ among => ?_
  have about : ∀ row ∈ batch, About snapshot row.2.id := by
    intro row mem
    have scanned := (config.scan_perm _).mem_iff.mp (among row mem)
    obtain ⟨inside, found⟩ := mem_joined.mp (List.mem_of_mem_filter scanned)
    exact .inl ⟨row.1, inside, (lookup_key found).symm⟩
  rw [Program.bind_assoc]
  refine Asks.bind (asks_write trivial) fun _ => ?_
  rw [pure_bind]
  refine Program.Ensures.bind (asks_decideFates batch) fun fates _ letters => ?_
  refine Asks.bind ?_ fun _ => Asks.bind ?_ fun _ => Asks.bind ?_ fun _ => asks_pure _
  · unfold requeueJobs
    split
    · exact asks_moveLive _ _
    · exact asks_pure _
  · unfold buryJobs
    split
    · refine (asks_moveLive _ _).bind fun _ => asks_fold (fun _ letter mem => ?_) _
      obtain ⟨row, inside, same⟩ := letters letter mem
      exact asks_letter (same ▸ about row inside)
    · exact asks_pure _
  · refine asks_fold (fun _ repo _ => ?_) _
    exact Asks.bind (asks_updateRepo _ trivial) fun _ => asks_pure _

end Verbs

-- The discipline

/-- Every transaction writes its letters about what was there, or about its own job. -/
def addresses {Client : Type} (config : Config)
    (constraint
      : LedgerSystem Client → Client → Event LedgerError Verb Reply → LedgerSystem Client
        → Prop)
    : Discipline store (code config) constraint where
  invariant _ := True
  rely _ _ before after := ∀ source, About before source → About after source
  permits _ _ _ _ := True
  post verb _ _ place := Addressing verb place
  rely_refl _ _ _ _ about := about
  rely_trans first second source about := second source (first source about)
  invariant_commit _ _ := trivial
  rely_commit _ _ _ _ _ _ _ about := (about_view _).mpr (.inl about)

theorem addresses_verified {Client : Type} {config : Config}
    {constraint
      : LedgerSystem Client → Client → Event LedgerError Verb Reply → LedgerSystem Client
        → Prop}
    : (addresses config constraint).Verified := by
  intro verb database _
  change (code config verb).Ensures addressing (fun _ place => Addressing verb place)
    ⟨database, [], []⟩
  have start : Addressing verb ⟨database, [], []⟩ :=
    fun _ mem => absurd mem List.not_mem_nil
  have static {Answer : Type} {transaction : Txn Answer} {wrap : Answer → Reply}
      (asks : Asks verb (fun _ => False) transaction)
      : (transaction >>= fun answer => pure (wrap answer)).Ensures addressing
          (fun _ place => Addressing verb place) ⟨database, [], []⟩ :=
    (asks.bind fun _ => asks_pure _).ensures start fun _ impossible => impossible.elim
  have dynamic {Answer : Type} {transaction : Txn Answer} {wrap : Answer → Reply}
      (ensures
        : transaction.Ensures addressing (fun _ later => Addressing verb later) ⟨database, [], []⟩)
      : (transaction >>= fun answer => pure (wrap answer)).Ensures addressing
          (fun _ place => Addressing verb place) ⟨database, [], []⟩ :=
    ensures.bind fun _ later holds => holds.ends
  cases verb with
  | ingestInbound id envelope body =>
      refine static (Asks.bind (asks_insert _ trivial) fun added => ?_)
      split
      · exact asks_pure _
      · refine asks_look.bind fun rows => ?_
        split
        · exact (asks_lock _).bind fun _ => asks_pure _
        · exact asks_raise _
  | submitJob submission id now => exact static (asks_submitJob submission id now)
  | leaseJob workerId skipRepos attemptId now =>
      exact static (asks_leaseRound workerId skipRepos attemptId now)
  | getAttemptJob attemptId => exact static (asks_getAttemptJob attemptId)
  | heartbeatAttempt attemptId now =>
      refine static (Asks.bind (asks_update _ _ trivial) fun extended => ?_)
      split
      · exact asks_pure _
      · exact asks_raise _
  | completeAttempt attemptId result outboundId now =>
      exact static (asks_completeAttempt attemptId result outboundId now)
  | failAttempt attemptId result now => exact dynamic (failAttempt_addressed start)
  | enqueueOutbound jobId body id => exact static (asks_enqueueOutbound jobId body id)
  | claimOutbound transport => exact static (asks_claimOutbound transport)
  | markOutboundSent id providerMsgId =>
      refine dynamic ((markSentFrom_addressed rfl rfl .leased id providerMsgId start).bind
        fun _ later holds => ?_)
      exact holds.ends
  | markOutboundSentInline id providerMsgId =>
      refine dynamic ((markSentFrom_addressed rfl rfl .pending id providerMsgId start).bind
        fun sent later holds => ?_)
      split
      · exact holds.ends
      · exact holds.ends
  | markOutboundFailed id => exact dynamic (markOutboundFailed_addressed start)
  | reclaimExpired healedAt now => exact dynamic (reclaimExpired_addressed start)
  | reconcileRepoConcurrency now => exact static (asks_reconcile now)
  | cancel jobId now => exact static (asks_cancel jobId now)
  | drift repo active => exact static (asks_updateRepo _ trivial)

end Ledger
