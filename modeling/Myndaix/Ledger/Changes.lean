import Myndaix.Ledger.Evolution

/-! Every change touches exactly its keys: one lemma for a single change, one for all the
changes of a transaction.
-/

namespace Ledger

open Relational Transactions

section Lookups

variable {Row Id : Type} [DecidableEq Id] {key : Row → Id} {rows : List Row} {id : Id}

/-- An update leaves the rows that it does not select. -/
theorem lookup_update_framed {selected : Row → Bool} {change : Row → Row} {row : Row}
    {untouched : Prop} (keeps : ∀ row, key (change row) = key row)
    (found : lookup key id rows = some row)
    (frame : untouched → selected row = false)
    : ∃ next, lookup key id (Relational.update selected change rows) = some next
        ∧ (untouched → next = row) := by
  refine ⟨if selected row then change row else row, ?_, ?_⟩
  · rw [lookup_update keeps, found]
    rfl
  · intro free
    simp [frame free]

theorem lookup_append_framed {row added : Row} {untouched : Prop}
    (found : lookup key id rows = some row)
    : ∃ next, lookup key id (rows ++ [added]) = some next ∧ (untouched → next = row) :=
  ⟨row, lookup_append_of_some [added] found, fun _ => rfl⟩

theorem lookup_isSome_update {selected : Row → Bool} {change : Row → Row} {present : Bool}
    (keeps : ∀ row, key (change row) = key row) (found : (lookup key id rows).isSome = present)
    : (lookup key id (Relational.update selected change rows)).isSome = present := by
  rw [lookup_update keeps, Option.isSome_map, found]

theorem lookup_isSome_append {added : Row} (other : key added ≠ id)
    : (lookup key id (rows ++ [added])).isSome = (lookup key id rows).isSome := by
  simp [lookup_append, other]

end Lookups

theorem any_update {Row : Type} {selected : Row → Bool} {change : Row → Row}
    {rows : List Row} {property : Row → Bool}
    (keeps : ∀ row, property (change row) = true → property row = true)
    (absent : rows.any property = false)
    : (Relational.update selected change rows).any property = false := by
  simp only [List.any_eq_false, Relational.update, List.mem_map] at absent ⊢
  rintro changed ⟨row, mem, rfl⟩ holds
  refine absent row mem ?_
  by_cases chosen : selected row = true
  · exact keeps row (by simpa [chosen] using holds)
  · simpa [chosen] using holds

theorem close_status (ended : AttemptEnd) (endedAt : Time) (result : Option Result)
    (errorClass : Option ErrorClass) (attempt : Attempt)
    : (attempt.close ended endedAt result errorClass).status ≠ .open_ := by
  cases ended <;> simp [Attempt.close, AttemptEnd.status]

section Framed

variable (floor : Int → Int) (change : Change) (database : Database)

variable {id : Id}

theorem Change.inbound_framed {row : InboundEvent} (found : database.inbound? id = some row)
    : (change.apply floor database).inbound? id = some row := by
  cases change with
  | insertInbound added => exact lookup_append_of_some [added] found
  | _ => exact found

theorem Change.job_framed {job : Job} (found : database.job? id = some job)
    : ∃ next, (change.apply floor database).job? id = some next
        ∧ (Key.job id ∉ change.keys → next = job) := by
  have identity := lookup_key found
  cases change with
  | insertJob added => exact lookup_append_framed found
  | setJobs ids status =>
      refine lookup_update_framed (fun _ => rfl) found (fun free => ?_)
      simpa [Change.keys, identity] using free
  | finishJob finished artifactRef =>
      refine lookup_update_framed (fun _ => rfl) found (fun free => ?_)
      simpa [Change.keys, identity] using free
  | _ => exact ⟨job, found, fun _ => rfl⟩

theorem Change.attempt_framed {attempt : Attempt} (found : database.attempt? id = some attempt)
    : ∃ next, (change.apply floor database).attempt? id = some next
        ∧ (Key.attempt id ∉ change.keys → next = attempt) := by
  have identity := lookup_key found
  cases change with
  | insertAttempt added => exact lookup_append_framed found
  | closeAttempts ids ended endedAt result errorClass =>
      refine lookup_update_framed (fun _ => rfl) found (fun free => ?_)
      simpa [Change.keys, identity] using free
  | extendLease extended expiresAt =>
      refine lookup_update_framed (fun _ => rfl) found (fun free => ?_)
      simpa [Change.keys, identity] using free
  | _ => exact ⟨attempt, found, fun _ => rfl⟩

theorem Change.repo_framed {repo : String} {row : RepoConcurrency}
    (found : database.repo? repo = some row)
    : ∃ next, (change.apply floor database).repo? repo = some next
        ∧ (Key.repo repo ∉ change.keys → next = row) := by
  have identity := lookup_key found
  cases change with
  | insertRepo added => exact lookup_append_framed found
  | setActive written active =>
      refine lookup_update_framed (fun _ => rfl) found (fun free => ?_)
      simpa [Change.keys, identity] using free
  | decrement written slots =>
      refine lookup_update_framed (fun _ => rfl) found (fun free => ?_)
      simpa [Change.keys, identity] using free
  | _ => exact ⟨row, found, fun _ => rfl⟩

theorem Change.outbound_framed {row : Outbound} (found : database.outbound? id = some row)
    : ∃ next, (change.apply floor database).outbound? id = some next
        ∧ (Key.outbound id ∉ change.keys → next = row) := by
  have identity := lookup_key found
  cases change with
  | insertOutbound added => exact lookup_append_framed found
  | claimOutbound written =>
      refine lookup_update_framed (fun _ => rfl) found (fun free => ?_)
      simpa [Change.keys, identity] using free
  | setOutbound written status =>
      refine lookup_update_framed (fun _ => rfl) found (fun free => ?_)
      simpa [Change.keys, identity] using free
  | sendOutbound written providerMsgId =>
      refine lookup_update_framed (fun _ => rfl) found (fun free => ?_)
      simp only [Change.keys, List.mem_cons, Key.outbound.injEq, not_or] at free
      simpa [identity] using free.1
  | _ => exact ⟨row, found, fun _ => rfl⟩

/-- An index entry appears only through a change that has its key. -/
theorem Change.absent_framed {key : Key} (free : key ∉ change.keys)
    (absent : key.present database = false)
    : key.present (change.apply floor database) = false := by
  cases key with
  | attempt id | job id | outbound id => cases absent
  | inboundEntry id =>
      cases change with
      | insertInbound row =>
          simp only [Change.keys, List.mem_cons, Key.inboundEntry.injEq, not_or] at free
          exact (lookup_isSome_append (Ne.symm free.1)).trans absent
      | _ => exact absent
  | dedupeEntry dedupeKey =>
      cases change with
      | insertInbound row =>
          simp only [Change.keys, List.mem_cons, Key.dedupeEntry.injEq, not_or] at free
          simpa [Key.present, Change.apply, Ne.symm free.2.1] using absent
      | _ => exact absent
  | jobEntry id =>
      cases change with
      | insertJob row =>
          simp only [Change.keys, Job.entries, List.mem_cons, Key.jobEntry.injEq, not_or] at free
          exact (lookup_isSome_append (Ne.symm free.1)).trans absent
      | setJobs ids status => exact lookup_isSome_update (fun _ => rfl) absent
      | finishJob finished artifactRef => exact lookup_isSome_update (fun _ => rfl) absent
      | _ => exact absent
  | jobOfInbound event =>
      cases change with
      | insertJob row =>
          have other : row.inboundEventId ≠ some event := by
            intro same
            simp [Change.keys, Job.entries, same] at free
          simpa [Key.present, Change.apply, other] using absent
      | setJobs ids status => exact any_update (fun _ holds => holds) absent
      | finishJob finished artifactRef => exact any_update (fun _ holds => holds) absent
      | _ => exact absent
  | attemptEntry id =>
      cases change with
      | insertAttempt row =>
          simp only [Change.keys, List.mem_cons, Key.attemptEntry.injEq, not_or] at free
          exact (lookup_isSome_append (Ne.symm free.1)).trans absent
      | closeAttempts ids ended endedAt result errorClass =>
          exact lookup_isSome_update (fun _ => rfl) absent
      | extendLease extended expiresAt =>
          exact lookup_isSome_update (fun _ => rfl) absent
      | _ => exact absent
  | openAttempt jobId =>
      cases change with
      | insertAttempt row =>
          simp only [Change.keys, List.mem_cons, Key.openAttempt.injEq, not_or] at free
          simpa [Key.present, Change.apply, Ne.symm free.2.1] using absent
      | closeAttempts ids ended endedAt result errorClass =>
          refine any_update (fun row holds => ?_) absent
          simp [close_status] at holds
      | extendLease extended expiresAt => exact any_update (fun _ holds => holds) absent
      | _ => exact absent
  | repo repoId =>
      cases change with
      | insertRepo row =>
          simp only [Change.keys, List.mem_singleton, Key.repo.injEq] at free
          exact (lookup_isSome_append (Ne.symm free)).trans absent
      | setActive written active => exact lookup_isSome_update (fun _ => rfl) absent
      | decrement written slots => exact lookup_isSome_update (fun _ => rfl) absent
      | _ => exact absent
  | outboundEntry id =>
      cases change with
      | insertOutbound row =>
          simp only [Change.keys, List.mem_cons, Key.outboundEntry.injEq, not_or] at free
          exact (lookup_isSome_append (Ne.symm free.1)).trans absent
      | claimOutbound written => exact lookup_isSome_update (fun _ => rfl) absent
      | setOutbound written status => exact lookup_isSome_update (fun _ => rfl) absent
      | sendOutbound written providerMsgId =>
          exact lookup_isSome_update (fun _ => rfl) absent
      | _ => exact absent
  | providerMsg provider =>
      cases change with
      | insertOutbound row =>
          have other : row.providerMsgId ≠ some provider := by
            intro same
            simp [Change.keys, same] at free
          simpa [Key.present, Change.apply, other] using absent
      | claimOutbound written => exact any_update (fun _ holds => holds) absent
      | setOutbound written status => exact any_update (fun _ holds => holds) absent
      | sendOutbound written providerMsgId =>
          simp only [Change.keys, List.mem_cons, Key.providerMsg.injEq, not_or] at free
          refine any_update (fun row holds => ?_) absent
          simp [Ne.symm free.2.1] at holds
      | _ => exact absent

/-- A change touches the rows and the index entries of its keys and nothing else. -/
theorem Change.framed : Framed (· ∈ change.keys) database (change.apply floor database) where
  inbound := change.inbound_framed floor database
  job := change.job_framed floor database
  attempt := change.attempt_framed floor database
  repo := change.repo_framed floor database
  outbound := change.outbound_framed floor database
  absent := change.absent_framed floor database

/-- So do the changes of a whole transaction, by induction on them. -/
theorem view_framed (changes : List Change)
    : Framed (fun key => ∃ change ∈ changes, key ∈ change.keys) database
        ((storeWith floor).view database changes) := by
  induction changes generalizing database with
  | nil => exact Framed.refl _ _
  | cons change changes ih =>
      rw [Store.view_cons]
      have first := (change.framed floor database).mono
        (fun key mem
          => (⟨change, List.mem_cons_self, mem⟩
            : ∃ other ∈ change :: changes, key ∈ other.keys))
      have rest := (ih (change.apply floor database)).mono
        (fun key found
          => (found.imp fun other inside => ⟨List.mem_cons_of_mem change inside.1, inside.2⟩
            : ∃ other ∈ change :: changes, key ∈ other.keys))
      exact first.trans rest

end Framed

section Batches

variable (rows : Database)

/-- What closing does to a row of the table. -/
def closeAmong (ids : List Id) (ended : AttemptEnd) (endedAt : Time) (result : Option Result)
    (errorClass : Option ErrorClass) (attempt : Attempt)
    : Attempt :=
  if attempt.id ∈ ids then attempt.close ended endedAt result errorClass else attempt

/-- What setting a status does to a row of the table. -/
def setAmong (ids : List Id) (status : JobStatus) (job : Job) : Job :=
  if job.id ∈ ids then { job with status := status } else job

def finishAt (id : Id) (artifactRef : Option String) (job : Job) : Job :=
  if job.id = id then { job with status := .done, artifactRef := artifactRef } else job

theorem setAmong_kept (ids : List Id) (status : JobStatus) (job : Job)
    : setAmong ids status job
      = {
          job with
          status := (setAmong ids status job).status,
          artifactRef := (setAmong ids status job).artifactRef
        } := by
  unfold setAmong
  split <;> rfl

@[simp] theorem setAmong_repoId (ids : List Id) (status : JobStatus) (job : Job)
    : (setAmong ids status job).repoId = job.repoId :=
  (congrArg Job.repoId (setAmong_kept ids status job)).trans rfl

@[simp] theorem job?_attempts (attempts : List Attempt) (id : Id)
    : Database.job? { rows with attempts := attempts } id = rows.job? id :=
  rfl

@[simp] theorem job?_setAmong (ids : List Id) (status : JobStatus) (id : Id)
    : Database.job? { rows with jobs := rows.jobs.map (setAmong ids status) } id
      = (rows.job? id).map (setAmong ids status) :=
  lookup_map (fun job => (congrArg Job.id (setAmong_kept ids status job)).trans rfl)

@[simp] theorem setAmong_nil (status : JobStatus) : setAmong [] status = id :=
  funext (fun _ => if_neg List.not_mem_nil)

theorem finishAt_kept (id : Id) (artifactRef : Option String) (job : Job)
    : finishAt id artifactRef job
      = {
          job with
          status := (finishAt id artifactRef job).status,
          artifactRef := (finishAt id artifactRef job).artifactRef
        } := by
  unfold finishAt
  split <;> rfl

theorem closeAmong_kept (ids : List Id) (ended : AttemptEnd) (endedAt : Time)
    (result : Option Result) (errorClass : Option ErrorClass) (attempt : Attempt)
    : (closeAmong ids ended endedAt result errorClass attempt).id = attempt.id
      ∧ (closeAmong ids ended endedAt result errorClass attempt).jobId = attempt.jobId := by
  unfold closeAmong
  split <;> exact ⟨rfl, rfl⟩

@[simp] theorem apply_closeAttempts (ids : List Id) (ended : AttemptEnd) (endedAt : Time)
    (result : Option Result) (errorClass : Option ErrorClass)
    : store.apply (.closeAttempts ids ended endedAt result errorClass) rows
      = {
          rows with
          attempts := rows.attempts.map (closeAmong ids ended endedAt result errorClass)
        } := by
  simp [store, storeWith, Change.apply, Relational.update, closeAmong]

@[simp] theorem apply_setJobs (ids : List Id) (status : JobStatus)
    : store.apply (.setJobs ids status) rows
      = { rows with jobs := rows.jobs.map (setAmong ids status) } := by
  simp [store, storeWith, Change.apply, Relational.update, setAmong]

@[simp] theorem apply_finishJob (id : Id) (artifactRef : Option String)
    : store.apply (.finishJob id artifactRef) rows
      = { rows with jobs := rows.jobs.map (finishAt id artifactRef) } := by
  simp [store, storeWith, Change.apply, Relational.update, finishAt]

/-- The counters after one decrement for each of these repositories. -/
def decremented (slots : String → Nat) (repos : List String)
    (table : List RepoConcurrency)
    : List RepoConcurrency :=
  repos.foldl
    (fun table repo =>
      Relational.update (fun row => row.repoId = repo)
        (fun row => { row with active := max (row.active - slots repo) 0 }) table)
    table

@[simp] theorem view_decrements (slots : String → Nat) (repos : List String)
    : store.view rows (repos.map (fun repo => .decrement repo (slots repo)))
      = { rows with repoConcurrency := decremented slots repos rows.repoConcurrency } := by
  induction repos generalizing rows with
  | nil => rfl
  | cons repo repos ih =>
      rw [List.map_cons, Store.view_cons, ih]
      rfl

@[simp] theorem view_slot (repoId : Option String)
    : store.view rows (repoId.toList.map (fun repo => .decrement repo 1))
      = {
          rows with
          repoConcurrency := decremented (fun _ => 1) repoId.toList rows.repoConcurrency
        } :=
  view_decrements rows (fun _ => 1) repoId.toList

@[simp] theorem view_replies (replies : List Outbound)
    : store.view rows (replies.map .insertOutbound)
      = { rows with outbound := rows.outbound ++ replies } := by
  induction replies generalizing rows with
  | nil => simp
  | cons reply replies ih =>
      rw [List.map_cons, Store.view_cons, ih]
      simp [store, storeWith, Change.apply]

@[simp] theorem view_letters (letters : List DeadLetter)
    : store.view rows (letters.map .insertDeadLetter)
      = { rows with deadLetters := rows.deadLetters ++ letters } := by
  induction letters generalizing rows with
  | nil => simp
  | cons letter letters ih =>
      rw [List.map_cons, Store.view_cons, ih]
      simp [store, storeWith, Change.apply]

theorem decremented_unique {slots : String → Nat} {repos : List String}
    {table : List RepoConcurrency} (unique : Unique RepoConcurrency.repoId table)
    : Unique RepoConcurrency.repoId (decremented slots repos table) := by
  induction repos generalizing table with
  | nil => exact unique
  | cons repo repos ih => exact ih (unique.update (fun _ => rfl))

/-- `active` as a table has it, 0 without a row. -/
theorem activeOf_decremented (slots : String → Nat) {repos : List String}
    (nodup : repos.Nodup) (present : ∀ repo ∈ repos, (rows.repo? repo).isSome = true)
    (repo : String)
    : Database.activeOf
          { rows with repoConcurrency := decremented slots repos rows.repoConcurrency } repo
      = if repo ∈ repos then max (rows.activeOf repo - slots repo) 0 else rows.activeOf repo := by
  induction repos generalizing rows with
  | nil => simp [decremented]
  | cons first repos ih =>
      obtain ⟨fresh, nodup⟩ := List.nodup_cons.mp nodup
      obtain ⟨row, found⟩ := Option.isSome_iff_exists.mp (present first List.mem_cons_self)
      have lookup_after (other : String)
          : (Change.apply (fun difference => max difference 0) (.decrement first (slots first))
              rows).repo? other
            = (rows.repo? other).map
                (fun row =>
                  if row.repoId = first then
                    { row with active := max (row.active - slots first) 0 }
                  else row) := by
        simp only [Change.apply, Database.repo?]
        rw [lookup_update]
        · simp only [decide_eq_true_eq]
        · exact fun _ => rfl
      have rest := ih (Change.apply (fun difference => max difference 0)
        (.decrement first (slots first)) rows) nodup (by
          intro other mem
          rw [lookup_after, Option.isSome_map]
          exact present other (List.mem_cons_of_mem first mem))
      refine rest.trans ?_
      by_cases own : repo = first
      · subst own
        have identity : row.repoId = repo := lookup_key found
        simp [fresh, Database.activeOf, lookup_after, found, identity]
      · have other : (Change.apply (fun difference => max difference 0)
            (.decrement first (slots first)) rows).activeOf repo = rows.activeOf repo := by
          simp only [Database.activeOf, lookup_after]
          cases found' : rows.repo? repo with
          | none => rfl
          | some row' =>
              have identity : row'.repoId = repo := lookup_key found'
              simp [identity, own]
        simp [own, other]

end Batches

/-- The counter that a change adds. -/
def Change.seeds : Change → Option String
  | .insertRepo row => some row.repoId
  | _ => none

/-- A counter that a change adds is among its keys. -/
theorem Change.seeds_key {change : Change} {repo : String} (seeded : change.seeds = some repo)
    : Key.repo repo ∈ change.keys := by
  cases change with
  | insertRepo row =>
      cases seeded
      exact List.mem_singleton_self _
  | _ => cases seeded

/-- Counters come and never go, by induction on the changes. -/
theorem view_repoIds (rows : Database) (changes : List Change)
    : (store.view rows changes).repoConcurrency.map RepoConcurrency.repoId
      = rows.repoConcurrency.map RepoConcurrency.repoId ++ changes.filterMap Change.seeds := by
  induction changes generalizing rows with
  | nil => simp
  | cons change changes ih =>
      have one : (store.apply change rows).repoConcurrency.map RepoConcurrency.repoId
          = rows.repoConcurrency.map RepoConcurrency.repoId ++ change.seeds.toList := by
        cases change with
        | insertRepo row => simp [store, storeWith, Change.apply, Change.seeds]
        | setActive repo active | decrement repo active =>
            simp only [store, storeWith, Change.apply, Change.seeds, Relational.update,
              List.map_map, Option.toList_none, List.append_nil]
            refine List.map_congr_left (fun row _ => ?_)
            by_cases own : row.repoId = repo <;> simp [own]
        | _ => simp [store, storeWith, Change.apply, Change.seeds]
      rw [Store.view_cons, ih, one, List.append_assoc]
      cases seeded : change.seeds with
      | none => simp [seeded]
      | some repo => simp [seeded]

/-- Changes that add no counter keep the key primary. -/
theorem view_uniqueRepo_of_unseeded {rows : Database} {changes : List Change}
    (unique : Unique RepoConcurrency.repoId rows.repoConcurrency)
    (unseeded : changes.filterMap Change.seeds = [])
    : Unique RepoConcurrency.repoId (store.view rows changes).repoConcurrency := by
  unfold Relational.Unique
  rw [view_repoIds, unseeded, List.append_nil]
  exact unique

/-- The row of a counter has its value. -/
theorem Database.active_of_mem {rows : Database}
    (unique : Unique RepoConcurrency.repoId rows.repoConcurrency) {row : RepoConcurrency}
    (mem : row ∈ rows.repoConcurrency)
    : rows.activeOf row.repoId = row.active := by
  have found : rows.repo? row.repoId = some row := lookup_of_mem unique mem
  simp [Database.activeOf, found]

end Ledger
