import Myndaix.Ledger.Ownership

/-! What `lease_job` answers: an attempt that this very call has opened, so no attempt is handed
out twice.
-/

namespace Ledger

open Interaction Relational Transactions

-- Every answered attempt is inserted by the transaction that answers it

/-- The transaction has inserted a row for this attempt. -/
def Opens (attemptId : Id) (place : Place Database Key Change) : Prop :=
  ∃ row, .insertAttempt row ∈ place.changes ∧ row.id = attemptId

/-- A lease that is answered is one that the transaction has opened. -/
def Grants (reply : Reply) (place : Place Database Key Change) : Prop :=
  ∀ attemptId, reply = .lease (.answered (some attemptId)) → Opens attemptId place

/-- The verbs under no discipline but their own. -/
def grants {Client : Type} (config : Config)
    : Discipline store (code config)
        (@unrestricted Database Key Change LedgerError Verb Client Reply) where
  invariant _ := True
  rely _ _ _ _ := True
  permits _ _ _ _ := True
  post _ _ reply place := Grants reply place
  rely_refl _ _ _ := trivial
  rely_trans _ _ := trivial
  invariant_commit _ _ := trivial
  rely_commit _ _ _ _ _ _ := trivial

section Free

variable {Answer Other : Type} {post : Answer → Place Database Key Change → Prop}
  {place : Place Database Key Change}

/-- A transaction among commits that may do anything. -/
abbrev free : Setting (Action Key Change LedgerError) (Action.Answer Database)
    (Place Database Key Change) :=
  store.amid (fun _ _ _ => True) (fun _ _ => trivial) (fun _ _ => trivial) (fun _ _ => True)

/-- Whatever holds of every end holds of a transaction's, by induction on the program. -/
theorem ensures_always (transaction : Txn Answer) (always : ∀ answer place, post answer place)
    : transaction.Ensures free post place := by
  induction transaction generalizing place with
  | done result => exact fun later _ => always result later
  | call action next ih => exact fun later _ => ⟨trivial, fun answer after _ => ih answer⟩

/-- What a transaction has changed it does not take back, by induction on the program. -/
theorem ensures_opens (transaction : Txn Answer) {attemptId : Id}
    (opens : Opens attemptId place)
    : transaction.Ensures free (fun _ => Opens attemptId) place := by
  induction transaction generalizing place with
  | done result =>
      rintro later ⟨_, same, _⟩
      obtain ⟨row, mem, own⟩ := opens
      exact ⟨row, same ▸ mem, own⟩
  | call action next ih =>
      rintro later ⟨_, same, _⟩
      refine ⟨trivial, fun answer after answered => ih answer ?_⟩
      obtain ⟨row, mem, own⟩ := opens
      rw [← same] at mem
      refine ⟨row, ?_, own⟩
      cases action with
      | look => exact answered.2 ▸ mem
      | lock key => exact answered ▸ mem
      | tryLock key =>
          subst answered
          split <;> exact mem
      | insert keys change =>
          obtain ⟨_, rfl⟩ := answered
          split
          · exact List.mem_append_left _ mem
          · exact mem
      | write change =>
          subst answered
          exact List.mem_append_left _ mem
      | unlock => exact answered ▸ mem
      | raise error => exact answered.elim

/-- What a transaction does first is of no matter to what follows it. -/
theorem ensures_after (transaction : Txn Other) {next : Other → Txn Answer}
    (follows : ∀ answer place, (next answer).Ensures free post place)
    : (transaction >>= next).Ensures free post place := by
  have always : transaction.Ensures free (fun _ _ => True) place :=
    ensures_always transaction (fun _ _ => trivial)
  exact always.bind (fun answer later _ => follows answer later)

/-- A verb that answers something else grants nothing. -/
theorem ensures_wrapped (transaction : Txn Other) {wrap : Other → Reply}
    (other : ∀ answer lease, wrap answer ≠ .lease lease)
    : (transaction >>= fun answer => .done (wrap answer)).Ensures free Grants place :=
  ensures_after transaction (fun answer _ _ _ _ same => absurd same (other answer _))

/-- An insert that does not raise has inserted. -/
theorem insertNew_opens (keys : List Key) (row : Attempt)
    : (insertNew keys (.insertAttempt row)).Ensures free (fun _ => Opens row.id) place := by
  intro later _
  refine ⟨trivial, fun added after answered => ?_⟩
  obtain ⟨_, rfl⟩ := answered
  cases added with
  | true =>
      rintro last ⟨_, same, _⟩
      exact ⟨row, same ▸ List.mem_append_right _ (List.mem_singleton_self _), rfl⟩
  | false => exact fun last _ => ⟨trivial, fun impossible => nomatch impossible⟩

theorem claim_opens (jobId attemptId : Id) (workerId : String) (now : Time)
    : (claim jobId attemptId workerId now).Ensures free
        (fun claimed place => claimed = true → Opens attemptId place) place := by
  refine ensures_after _ (fun leased place => ?_)
  cases leased with
  | true =>
      refine (insertNew_opens _ _).bind (fun _ later opens => ?_)
      exact (ensures_opens (.done true) opens).weaken (fun _ _ opens _ => opens)
  | false => exact fun later _ claimed => by cases claimed

end Free

/-- What a round answers it has opened. -/
def Answers (lease : Lease) (place : Place Database Key Change) : Prop :=
  ∀ attemptId, lease = .answered (some attemptId) → Opens attemptId place

section Round

variable {config : Config} {workerId : String} {skipRepos : List String} {attemptId : Id}
  {now : Time} {place : Place Database Key Change}

/-- Whatever follows a claim that succeeded, its attempt may be answered. -/
theorem answers_opened {Other : Type} (transaction : Txn Other) (opens : Opens attemptId place)
    : (transaction >>= fun _ => .done (.answered (some attemptId))).Ensures free Answers place := by
  refine (ensures_opens transaction opens).bind (fun _ later opens last moved other same => ?_)
  cases same
  exact ensures_opens (.done ()) opens last moved

/-- A round that goes on, or answers that there is nothing to do, has nothing to show. -/
theorem answers_nothing {lease : Lease} (nothing : ∀ id, lease ≠ .answered (some id))
    : (Program.done lease : Txn Lease).Ensures free Answers place :=
  fun _ _ _ same => absurd same (nothing _)

theorem countAndClaim_answers (jobId : Id) (repo : String)
    : (countAndClaim config workerId skipRepos attemptId now jobId repo).Ensures free Answers
        place := by
  refine ensures_after look (fun rows place => ?_)
  dsimp only
  split
  · exact ensures_after _ (fun _ _ => answers_nothing (by simp))
  · refine (claim_opens jobId attemptId workerId now).bind (fun claimed later opens => ?_)
    cases claimed with
    | true => exact answers_opened _ (opens rfl)
    | false => exact answers_nothing (by simp)

theorem leaseRound_answers
    : (leaseRound config workerId skipRepos attemptId now).Ensures free Answers place := by
  refine ensures_after (pick config skipRepos) (fun picked place => ?_)
  cases picked with
  | none => exact answers_nothing (by simp)
  | some job =>
      dsimp only
      split
      · refine (claim_opens job.id attemptId workerId now).bind (fun claimed later opens => ?_)
        cases claimed with
        | true => exact answers_opened (.done ()) (opens rfl)
        | false => exact answers_nothing (by simp)
      · exact ensures_after _ (fun _ _ => ensures_after _ (fun _ _ => countAndClaim_answers _ _))

end Round

theorem grants_verified {Client : Type} (config : Config)
    : (@grants Client config).Verified := by
  intro verb database _
  change (code config verb).Ensures free Grants ⟨database, [], []⟩
  cases verb with
  | leaseJob workerId skipRepos attemptId now =>
      refine leaseRound_answers.bind (fun lease later answers last moved other same => ?_)
      cases same
      exact ensures_opens (.done ()) (answers other rfl) last moved
  | ingestInbound | submitJob | getAttemptJob | enqueueOutbound | claimOutbound
  | markOutboundSentInline | reclaimExpired | reconcileRepoConcurrency =>
      exact ensures_wrapped _ (by simp)
  | heartbeatAttempt | completeAttempt | failAttempt | markOutboundSent | markOutboundFailed
  | cancel | drift =>
      exact ensures_wrapped _ (by simp)

-- An answered attempt is new

/-- The attempt that a change adds. -/
def Change.opens : Change → Option Id
  | .insertAttempt row => some row.id
  | _ => none

/-- Attempts come and never go, by induction on the changes. -/
theorem view_attemptIds (rows : Database) (changes : List Change)
    : (store.view rows changes).attempts.map Attempt.id
      = rows.attempts.map Attempt.id ++ changes.filterMap Change.opens := by
  induction changes generalizing rows with
  | nil => simp
  | cons change changes ih =>
      have one : (store.apply change rows).attempts.map Attempt.id
          = rows.attempts.map Attempt.id ++ change.opens.toList := by
        cases change with
        | insertAttempt row => simp [store, storeWith, Change.apply, Change.opens]
        | closeAttempts ids ended endedAt result errorClass =>
            simp only [store, storeWith, Change.apply, Change.opens, Relational.update,
              List.map_map, Option.toList_none, List.append_nil]
            refine List.map_congr_left (fun row _ => ?_)
            by_cases own : row.id ∈ ids <;> simp [own, Attempt.close]
        | extendLease id expiresAt =>
            simp only [store, storeWith, Change.apply, Change.opens, Relational.update,
              List.map_map, Option.toList_none, List.append_nil]
            refine List.map_congr_left (fun row _ => ?_)
            by_cases own : row.id = id <;> simp [own]
        | _ => simp [store, storeWith, Change.apply, Change.opens]
      rw [Store.view_cons, ih, one, List.append_assoc]
      cases opened : change.opens with
      | none => simp [opened]
      | some id => simp [opened]

theorem mem_attemptIds {rows : Database} {id : Id}
    : id ∈ rows.attempts.map Attempt.id ↔ (rows.attempt? id).isSome = true := by
  constructor
  · intro mem
    obtain ⟨attempt, inside, rfl⟩ := List.mem_map.mp mem
    simpa [Database.attempt?, lookup] using ⟨attempt, inside, rfl⟩
  · intro present
    obtain ⟨attempt, found⟩ := Option.isSome_iff_exists.mp present
    exact List.mem_map.mpr ⟨attempt, lookup_mem found, lookup_key found⟩

variable {Client : Type} [DecidableEq Client] {config : Config} {system next : LedgerSystem Client}

/-- The attempt that a lease answers was not there before, and is there now. -/
theorem granted_fresh (reachable : LedgerReachable config system) {client : Client} {verb : Verb}
    {attemptId : Id}
    (step
      : Step store (code config) system client
          (.committed verb (.lease (.answered (some attemptId)))) next)
    : attemptId ∉ system.committed.attempts.map Attempt.id
      ∧ attemptId ∈ next.committed.attempts.map Attempt.id := by
  have consistent : Consistent next.committed :=
    ((ledger_sound reachable).step (protocol_verified verbs_keep) step trivial).invariant
  have granted := (grants_verified config).sound trivial reachable
  cases step with
  | @committed session result open_ finished =>
      obtain ⟨row, inserted, rfl⟩ := granted.finished open_ finished attemptId rfl
      have unique := consistent.uniqueAttempt
      have ids := view_attemptIds system.committed session.changes
      have new : row.id ∈ session.changes.filterMap Change.opens :=
        List.mem_filterMap.mpr ⟨_, inserted, rfl⟩
      refine ⟨fun old => ?_, ids ▸ List.mem_append_right _ new⟩
      rw [Relational.Unique, ids] at unique
      exact (List.nodup_append.mp unique).2.2 row.id old row.id new rfl

/-- No step takes an attempt away. -/
theorem attempts_stay {client : Client} {event : Event LedgerError Verb Reply}
    (step : Step store (code config) system client event next) {attemptId : Id}
    (there : attemptId ∈ system.committed.attempts.map Attempt.id)
    : attemptId ∈ next.committed.attempts.map Attempt.id := by
  cases step with
  | began | acted | aborted | crashed => exact there
  | committed open_ finished =>
      exact (view_attemptIds _ _) ▸ List.mem_append_left _ there

end Ledger
