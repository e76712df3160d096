import Myndaix.Ledger.Counters

/-! The contract of `lease_job`: a job is claimed under its lock, and under its repository's
counter lock while the hard count is below the cap.
-/

namespace Ledger

open Interaction Relational Transactions

variable {config : Config} {exact : Prop} {began : Database}

/-- The seed of a counter: its row was there, or this transaction adds it. -/
def Seeded (repo : String) (seed : List Change) (rows : Database) : Prop :=
  (seed = [] ∧ (rows.repo? repo).isSome = true)
  ∨ (seed = [.insertRepo ⟨repo, 0⟩] ∧ (Key.repo repo).present rows = false)

variable {held : List Key}

theorem Stable.seeded {repo : String} {seed : List Change} (locked : Key.repo repo ∈ held)
    : Stable (Rely exact) held (Seeded repo seed) :=
  fun _ _ moved seeded =>
    seeded.imp (And.imp_right (fun present => Stable.repo moved present))
      (And.imp_right (fun absent => Stable.absent locked moved absent))

namespace Seeded

variable {repo : String} {seed : List Change} {rows : Database} (seeded : Seeded repo seed rows)

include seeded

theorem present : ((store.view rows seed).repo? repo).isSome = true := by
  rcases seeded with ⟨rfl, present⟩ | ⟨rfl, _⟩
  · exact present
  · rw [Store.view_cons, Store.view_nil]
    simp [store, storeWith, Change.apply, Database.repo?, lookup_append]

theorem activeOf (other : String)
    : (store.view rows seed).activeOf other = rows.activeOf other := by
  rcases seeded with ⟨rfl, _⟩ | ⟨rfl, absent⟩
  · rfl
  · rw [Store.view_cons, Store.view_nil]
    exact activeOf_insertRepo (by simpa [Key.present] using absent) other

theorem counts : ∀ change ∈ seed, change.counts = true := by
  rcases seeded with ⟨rfl, _⟩ | ⟨rfl, _⟩ <;> simp [Change.counts]

/-- Nothing but the seed adds a counter, so the key stays primary. -/
theorem unique (holds : Consistent rows) {more : List Change}
    (noSeed : more.filterMap Change.seeds = [])
    : Relational.Unique RepoConcurrency.repoId
        (store.view rows (seed ++ more)).repoConcurrency := by
  refine view_uniqueRepo holds.uniqueRepo ?_ ?_
  · rcases seeded with ⟨rfl, _⟩ | ⟨rfl, _⟩ <;> simp [noSeed, Change.seeds]
  · intro other mem
    rw [List.filterMap_append, noSeed, List.append_nil] at mem
    rcases seeded with ⟨rfl, _⟩ | ⟨rfl, absent⟩
    · cases mem
    · obtain rfl : repo = other := by simpa [Change.seeds, eq_comm] using mem
      simpa [Key.present] using absent

end Seeded

/-- The job that PICK found is still queued, under the lock that PICK took. -/
def Picked (job : Job) (rows : Database) : Prop :=
  ∃ row, rows.job? job.id = some row ∧ job.Continues row ∧ row.status = .queued

theorem Stable.picked {job : Job} (locked : Key.job job.id ∈ held)
    : Stable (Rely exact) held (Picked job) :=
  Stable.exists fun _ => (Stable.job locked).and (Stable.const _)

/-- The attempt that CLAIM opens. -/
def openedAttempt (jobId attemptId : Id) (workerId : String) (now : Time) : Attempt :=
  {
    id := attemptId,
    jobId := jobId,
    workerId := workerId,
    leaseExpiresAt := now + leaseSeconds,
    endedAt := none,
    status := .open_,
    result := none,
    errorClass := none
  }

/-- The rows after CLAIM alone. -/
theorem view_claim (rows : Database) (jobId : Id) (attempt : Attempt)
    : store.view rows ([] ++ [Change.setJobs [jobId] .leased, .insertAttempt attempt])
      = {
          rows with
          attempts := rows.attempts ++ [attempt],
          jobs := rows.jobs.map (setAmong [jobId] .leased),
        } := by
  simp [store, storeWith, Change.apply, Relational.update, setAmong]

/-- The rows after CLAIM, with counters set before and after it. -/
theorem Seeded.view_claim {repo : String} {seed : List Change} {rows : Database}
    (seeded : Seeded repo seed rows) (jobId : Id) (attempt : Attempt) (active : Int)
    : store.view rows
          (seed ++ [Change.setJobs [jobId] .leased, .insertAttempt attempt]
            ++ [Change.setActive repo active])
      = {
          rows with
          attempts := rows.attempts ++ [attempt],
          jobs := rows.jobs.map (setAmong [jobId] .leased),
          repoConcurrency :=
            (store.view rows (seed ++ [Change.setActive repo active])).repoConcurrency
        } := by
  rcases seeded with ⟨rfl, _⟩ | ⟨rfl, _⟩ <;>
    simp [store, storeWith, Change.apply, Relational.update, setAmong]

/-- Leasing a picked job, whatever happens to the counters. -/
theorem claims_picked {rows : Database} {job : Job} {attemptId : Id} {workerId : String}
    {skipRepos : List String} {now : Time} {table : List RepoConcurrency} (picked : Picked job rows)
    (locked : Key.job job.id ∈ held) (fresh : rows.attempt? attemptId = none)
    (unique : Relational.Unique RepoConcurrency.repoId table)
    (capped
      : ∀ repo,
          job.repoId = some repo
          → Key.repo repo ∈ held
            ∧ (lookup RepoConcurrency.repoId repo table).isSome = true
            ∧ rows.openNow repo < config.maxPerRepo)
    (accounted
      : exact
        → ∀ repo,
            Database.activeOf { rows with repoConcurrency := table } repo
              = if job.repoId = some repo then (rows.openNow repo : Int) + 1
                else rows.activeOf repo)
    : Commit config exact (.leaseJob workerId skipRepos attemptId now) held rows
        {
          rows with
          attempts := rows.attempts ++ [openedAttempt job.id attemptId workerId now],
          jobs := rows.jobs.map (setAmong [job.id] .leased),
          repoConcurrency := table
        } := by
  obtain ⟨row, found, continues, queued⟩ := picked
  have sameId : row.id = job.id := continues.id
  have sameRepo : row.repoId = job.repoId := continues.repoId
  have claims : Claims config exact held rows
      {
        rows with
        attempts := rows.attempts ++ [openedAttempt job.id attemptId workerId now],
        jobs := rows.jobs.map (setAmong [job.id] .leased),
        repoConcurrency := table
      }
      row (openedAttempt job.id attemptId workerId now) := {
    inboundEvents := rfl
    attempts := rfl
    jobs := by simp [setAmong, sameId]
    outbound := rfl
    deadLetters := rfl
    uniqueRepo := unique
    found := by rw [sameId]; exact found
    queued := queued
    lockedJob := by rw [sameId]; exact locked
    fresh := fresh
    sameJob := sameId.symm
    opened := rfl
    capped := by rw [sameRepo]; exact capped
    accounted := by rw [sameRepo]; exact accounted
  }
  exact .claim claims

theorem attemptEntry_view {id : Id} {rows : Database} {changes : List Change}
    (present : (Key.attemptEntry id).present rows = true)
    : (Key.attemptEntry id).present (store.view rows changes) = true := by
  obtain ⟨row, found⟩ := Option.isSome_iff_exists.mp present
  obtain ⟨next, found', _⟩ :=
    (view_framed (fun difference => max difference 0) rows changes).attempt found
  exact Option.isSome_iff_exists.mpr ⟨next, found'⟩

section Claim

variable {workerId : String} {skipRepos : List String} {attemptId : Id} {now : Time} {job : Job}
  {Answer : Type} {post : Answer → Place Database Key Change → Prop}

/-- CLAIM of a picked job succeeds, unless the attempt's id is taken. -/
theorem claim_rule {next : Bool → Txn Answer} {fact : Database → Prop} {rows : Database}
    {changes : List Change} (stable : Stable (Rely exact) held fact) (here : fact rows)
    (locked : Key.job job.id ∈ held) (kinds : ∀ key ∈ held, key.kind < 3)
    (picked : ∀ rows, fact rows → Picked job rows)
    (seen
      : ∀ rows, fact rows → (store.view rows changes).job? job.id = rows.job? job.id)
    (continues
      : ∀ rows,
          fact rows
          → (Key.attemptEntry attemptId).present rows = false
          → (next true).Ensures
              (ledgerSetting config exact (.leaseJob workerId skipRepos attemptId now) began) post
              ⟨rows, [Key.attemptEntry attemptId, .openAttempt job.id] ++ (Key.job job.id :: held),
                changes
                  ++ [
                    Change.setJobs [job.id] .leased,
                    .insertAttempt (openedAttempt job.id attemptId workerId now)
                  ]⟩)
    : (claim job.id attemptId workerId now >>= next).Ensures
        (ledgerSetting config exact (.leaseJob workerId skipRepos attemptId now) began) post
        ⟨rows, held, changes⟩ := by
  simp only [claim, update, Program.bind_assoc]
  have queued (rows : Database) (here : fact rows)
      : ((store.view rows changes).job? job.id).any (fun row => row.status = .queued) = true := by
    obtain ⟨row, found, _, queued⟩ := picked rows here
    rw [seen rows here, found]
    simpa using queued
  refine look_rule stable here (fun snapshot atSnapshot => ?_)
  refine updateFrom_rule stable atSnapshot (fun _ _ _ => Or.inl locked) (fun _ _ here _ => here)
    (Stable.lock _ stable) (by simp [Change.keys]) (fun _ _ => noFloor_of_other (by simp)) ?_ ?_ ?_
  · intro rows here
    simp only [if_true, Program.bind_assoc]
    refine insertNew_rule (Stable.lock _ stable) here ?_ (by simp [Change.keys]) (by simp) ?_ ?_
    · intro _ _ key mem
      refine orderly_entry ?_ ?_
      · rcases List.mem_cons.mp mem with rfl | mem
        · rfl
        · rw [List.mem_singleton.mp mem]
          rfl
      · intro key mem
        rcases List.mem_cons.mp mem with rfl | mem
        · simp [Key.kind]
        · exact kinds key mem
    · simp [Verb.fences]
    · intro rows here absent
      have fresh := absent_of_view attemptEntry_view (absent (.attemptEntry attemptId) (by simp))
      simpa [openedAttempt] using continues rows here fresh
  · intro _ rows here gone
    rw [queued rows here] at gone
    cases gone
  · intro gone
    rw [queued snapshot atSnapshot] at gone
    cases gone

/-- What a round knows of the committed rows once it has picked a job. -/
def Picking (exact : Prop) (began : Database) (job : Job) (rows : Database) : Prop :=
  Consistent rows ∧ (exact → rows = began) ∧ Picked job rows

theorem Stable.picking (locked : Key.job job.id ∈ held)
    : Stable (Rely exact) held (Picking exact began job) :=
  Stable.consistent.and ((Stable.alone began).and (Stable.picked locked))

/-- Setting the counter of a seeded repository always finds its row. -/
theorem setActive_rule {repo : String} {active : Int} {next : Bool → Txn Answer}
    {fact : Database → Prop} {verb : Verb} {rows : Database} {changes : List Change}
    (stable : Stable (Rely exact) held fact) (here : fact rows) (locked : Key.repo repo ∈ held)
    (present
      : ∀ rows, fact rows → ((store.view rows changes).repo? repo).isSome = true)
    (continues
      : ∀ rows,
          fact rows
          → (next true).Ensures (ledgerSetting config exact verb began) post
              ⟨rows, .repo repo :: held, changes ++ [Change.setActive repo active]⟩)
    : (updateRepo repo (.setActive repo active) >>= next).Ensures
        (ledgerSetting config exact verb began) post ⟨rows, held, changes⟩ := by
  simp only [updateRepo, update, Program.bind_assoc]
  refine look_rule stable here (fun snapshot atSnapshot => ?_)
  refine updateFrom_rule stable atSnapshot (fun _ _ _ => Or.inl locked) (fun _ _ here _ => here)
    (Stable.lock _ stable) (by simp [Change.keys]) (fun _ _ => noFloor_of_other (by simp))
    continues ?_ ?_
  · intro _ rows here gone
    rw [present rows here] at gone
    cases gone
  · intro gone
    rw [present snapshot atSnapshot] at gone
    cases gone

/-- After the seed a round counts, and claims below the cap only. -/
theorem countAndClaim_ensures {repo : String} (own : job.repoId = some repo) {rows : Database}
    {seed : List Change} (lockedJob : Key.job job.id ∈ held) (lockedRepo : Key.repo repo ∈ held)
    (kinds : ∀ key ∈ held, key.kind < 3)
    (here : Picking exact began job rows ∧ Seeded repo seed rows)
    : (countAndClaim config workerId skipRepos attemptId now job.id repo >>= fun lease =>
        (Program.done (.lease lease) : Txn Reply)).Ensures
        (ledgerSetting config exact (.leaseJob workerId skipRepos attemptId now) began)
        (fun _ => Ends config exact (.leaseJob workerId skipRepos attemptId now))
        ⟨rows, held, seed⟩ := by
  have unfenced (id : Id)
      : (Verb.leaseJob workerId skipRepos attemptId now).fences = some id → OpenIn rows id := by
    simp [Verb.fences]
  have stable (held : List Key) (lockedJob : Key.job job.id ∈ held)
      (lockedRepo : Key.repo repo ∈ held)
      : Stable (Rely exact) held (fun rows =>
          Picking exact began job rows ∧ Seeded repo seed rows) :=
    (Stable.picking lockedJob).and (Stable.seeded lockedRepo)
  simp only [countAndClaim, Program.bind_assoc]
  refine look_rule (stable held lockedJob lockedRepo) here (fun rows here => ?_)
  have counted : (store.view rows seed).openNow repo = rows.openNow repo := by
    rw [view_counters here.2.counts]
    rfl
  rw [counted]
  have seen (rows : Database) (here : Seeded repo seed rows)
      : (store.view rows seed).job? job.id = rows.job? job.id := by
    rw [view_counters here.counts]
    rfl
  split
  case isTrue capped =>
    simp only [Program.bind_assoc]
    have stable : Stable (Rely exact) held (fun later =>
          (Picking exact began job later ∧ Seeded repo seed later) ∧ (exact → rows = began)) :=
      (stable held lockedJob lockedRepo).and (Stable.const _)
    refine setActive_rule stable ⟨here, here.1.2.1⟩ lockedRepo
      (fun rows here => here.1.2.present) (fun later atLater => ?_)
    refine done_rule (Stable.lock _ stable) atLater (fun later atLater => ⟨?_, ?_⟩)
    · obtain ⟨⟨⟨consistent, same, _⟩, seeded⟩, same'⟩ := atLater
      refine commit_counters consistent ?_ (seeded.unique consistent (by simp [Change.seeds])) ?_
      · intro change mem
        rcases List.mem_append.mp mem with old | new
        · exact seeded.counts change old
        · rw [List.mem_singleton.mp new]
          rfl
      · refine fun other => ⟨freed_id _ other, fun alone => ?_⟩
        rw [Store.view_append, Store.view_cons, Store.view_nil,
          activeOf_setActive seeded.present, seeded.activeOf]
        by_cases own : repo = other
        · subst own
          rw [if_pos rfl, same alone, same' alone]
          exact Or.inr rfl
        · exact Or.inl (if_neg own)
    · simp [Verb.fences]
  case isFalse under =>
    simp only [Program.bind_assoc]
    have stable (held : List Key) (lockedJob : Key.job job.id ∈ held)
        (lockedRepo : Key.repo repo ∈ held)
        : Stable (Rely exact) held (fun later =>
            (Picking exact began job later ∧ Seeded repo seed later)
            ∧ (exact → rows = began) ∧ later.openNow repo ≤ rows.openNow repo) :=
      (stable held lockedJob lockedRepo).and ((Stable.const _).and (Stable.openNow lockedRepo))
    refine claim_rule (stable held lockedJob lockedRepo) ⟨here, here.1.2.1, Nat.le_refl _⟩
      lockedJob kinds (fun rows here => here.1.1.2.2) (fun rows here => seen rows here.1.2) ?_
    intro later atLater fresh
    simp only [if_true, Program.bind_assoc]
    have stable (held : List Key) (lockedJob : Key.job job.id ∈ held)
        (lockedRepo : Key.repo repo ∈ held) (lockedEntry : Key.attemptEntry attemptId ∈ held)
        : Stable (Rely exact) held (fun later =>
            ((Picking exact began job later ∧ Seeded repo seed later)
            ∧ (exact → rows = began) ∧ later.openNow repo ≤ rows.openNow repo)
            ∧ (Key.attemptEntry attemptId).present later = false) :=
      (stable held lockedJob lockedRepo).and (Stable.absent lockedEntry)
    refine setActive_rule (stable _ (by simp) (by simp [lockedRepo]) (by simp)) ⟨atLater, fresh⟩
      (by simp [lockedRepo]) ?_ ?_
    · rintro rows ⟨⟨⟨_, seeded⟩, _⟩, _⟩
      rw [Store.view_append]
      exact view_repo_isSome _ seeded.present
    · intro last atLast
      refine done_rule (Stable.lock _ (stable _ (by simp) (by simp [lockedRepo]) (by simp)))
        atLast ?_
      rintro last ⟨⟨⟨⟨consistent, same, picked⟩, seeded⟩, same', atMost⟩, fresh⟩
      refine ⟨?_, by simp [Verb.fences]⟩
      have present := seeded.present
      have tail : store.view last (seed ++ [Change.setActive repo (rows.openNow repo + 1)])
          = store.apply (.setActive repo (rows.openNow repo + 1)) (store.view last seed) := by
        rw [Store.view_append, Store.view_cons, Store.view_nil]
      have active (other : String)
          : (store.view last
            (seed ++ [Change.setActive repo (rows.openNow repo + 1)])).activeOf other
            = if repo = other then (rows.openNow repo : Int) + 1
              else (store.view last seed).activeOf other := by
        rw [tail]
        exact activeOf_setActive present other
      rw [seeded.view_claim]
      refine claims_picked picked (by simp) (by simpa [Key.present] using fresh)
        (seeded.unique consistent (by simp [Change.seeds])) ?_ ?_
      · intro other own'
        obtain rfl := Option.some.inj (own.symm.trans own')
        refine ⟨by simp, ?_, Nat.lt_of_le_of_lt atMost (Nat.lt_of_not_le under)⟩
        have still := view_repo_isSome [.setActive repo (rows.openNow repo + 1)] present
        rwa [← Store.view_append] at still
      · intro alone other
        change (store.view last
          (seed ++ [Change.setActive repo (rows.openNow repo + 1)])).activeOf other
          = _
        rw [active, seeded.activeOf]
        simp only [own, Option.some.injEq, same alone, same' alone]
        split
        · subst ‹repo = other›
          rfl
        · rfl

end Claim

/-- A picked job of a repository is claimed under its counter's lock. -/
theorem claimUnderCap_ensures {workerId : String} {skipRepos : List String} {attemptId : Id}
    {now : Time} {job : Job} {repo : String} (own : job.repoId = some repo) {rows : Database}
    (lockedJob : Key.job job.id ∈ held) (kinds : ∀ key ∈ held, key.kind < 2)
    (here : Picking exact began job rows)
    : (claimUnderCap config workerId skipRepos attemptId now job.id repo >>= fun lease =>
        (Program.done (.lease lease) : Txn Reply)).Ensures
        (ledgerSetting config exact (.leaseJob workerId skipRepos attemptId now) began)
        (fun _ => Ends config exact (.leaseJob workerId skipRepos attemptId now))
        ⟨rows, held, []⟩ := by
  have below (held' : List Key) (within : ∀ key ∈ held', key = .repo repo ∨ key ∈ held)
      : ∀ key ∈ held', key.kind < 3 := by
    intro key mem
    rcases within key mem with rfl | old
    · simp [Key.kind]
    · have := kinds key old
      omega
  simp only [claimUnderCap, lockRepo, Program.bind_assoc]
  refine insert_rule (Stable.picking lockedJob) here ?_ (by simp [Change.keys]) (by simp) ?_ ?_
  · intro rows here key mem
    rw [List.mem_singleton.mp mem]
    exact Or.inr (Or.inl (fun other inside => Or.inl (kinds other inside)))
  · intro rows here absent
    have stable : Stable (Rely exact) ([Key.repo repo] ++ held) (fun rows =>
          Picking exact began job rows
          ∧ Seeded repo ([] ++ [Change.insertRepo ⟨repo, 0⟩]) rows) :=
      (Stable.picking (by simp [lockedJob])).and (Stable.seeded (by simp))
    refine look_rule stable ⟨here, Or.inr ⟨rfl, absent _ (by simp)⟩⟩ (fun rows here => ?_)
    simp only [here.2.present, if_true]
    refine lock_rule stable here (fun _ _ => Or.inl (by simp)) (fun rows here => ?_)
    exact countAndClaim_ensures own (by simp [lockedJob]) (by simp) (below _ (by simp)) here
  · intro rows key here mem present
    rw [List.mem_singleton.mp mem] at present
    have stable (held : List Key) (lockedJob : Key.job job.id ∈ held)
        : Stable (Rely exact) held (fun rows =>
            Picking exact began job rows ∧ (rows.repo? repo).isSome = true) :=
      (Stable.picking lockedJob).and Stable.repo
    refine look_rule (stable held lockedJob) ⟨here, present⟩ (fun rows here => ?_)
    simp only [Store.view_nil, here.2, if_true]
    refine lock_rule (stable held lockedJob) here
      (fun _ _ => Or.inr (Or.inl (fun other inside => Or.inl (kinds other inside))))
      (fun rows here => ?_)
    exact countAndClaim_ensures own (by simp [lockedJob]) (by simp) (below _ (by simp))
      ⟨here.1, Or.inl ⟨rfl, here.2⟩⟩

/-- `lease_job` claims a job that it has picked and locked, or changes counters only. -/
theorem leaseJob_keeps (workerId : String) (skipRepos : List String) (attemptId : Id)
    (now : Time)
    : Keeps config exact (.leaseJob workerId skipRepos attemptId now) := by
  intro began holds
  simp only [code, leaseRound, pick, Program.bind_assoc]
  have start (held : List Key) : Stable (Rely exact) held (fun rows =>
        Consistent rows ∧ (exact → rows = began)) :=
    Stable.consistent.and (Stable.alone began)
  refine look_rule (start []) ⟨holds, fun _ => rfl⟩ (fun snapshot here => ?_)
  rw [Store.view_nil]
  have stable (held : List Key) : Stable (Rely exact) held (fun rows =>
        (Consistent rows ∧ (exact → rows = began))
        ∧ ∀ job, snapshot.job? job.id = some job
          → ∃ row, rows.job? job.id = some row ∧ job.Continues row) :=
    (start held).and (Stable.all fun _ => fun _ _ moved known found =>
      Stable.jobRow moved (known found))
  refine select_rule Picked ?_ (stable [])
    ⟨here, fun job found => ⟨job, found, .refl job⟩⟩ ?_ ?_
  · exact fun job held locked => Stable.picked (locked _ (List.mem_singleton_self _))
  · rintro job listed rows ⟨_, known⟩ passes
    have mem : job ∈ snapshot.jobs :=
      (List.mem_filter.mp ((List.perm_insertionSort _ _).mem_iff.mp listed)).1
    obtain ⟨row, found, leasable_⟩ := (Option.any_eq_true _ _).mp passes
    obtain ⟨next, foundNext, continues⟩ :=
      known job (lookup_of_mem here.1.uniqueJob mem)
    obtain rfl := Option.some.inj (foundNext.symm.trans found)
    simp only [leasable, Bool.and_eq_true, decide_eq_true_eq] at leasable_
    exact ⟨next, foundNext, continues, leasable_.1.1⟩
  · intro selected more rows here sub bound each within
    cases selected with
    | nil =>
        exact done_rule (stable _) here (fun _ _ => Ends.quiet rfl)
    | cons job rest =>
        obtain ⟨picked, locked⟩ := each job List.mem_cons_self
        have lockedJob : Key.job job.id ∈ more ++ [] :=
          List.mem_append_left _ (locked _ (List.mem_singleton_self _))
        have kinds : ∀ key ∈ more ++ [], key.kind < 2 := by
          intro key mem
          rw [List.append_nil] at mem
          obtain ⟨item, _, inside⟩ := within key mem
          rw [List.mem_singleton.mp inside]
          simp [Key.kind]
        have picking : Picking exact began job rows := ⟨here.1.1, here.1.2, picked⟩
        simp only [Program.pure_eq_done, Program.done_bind, List.head?_cons]
        cases own : job.repoId with
        | some repo =>
            exact claimUnderCap_ensures own lockedJob kinds picking
        | none =>
            simp only [Program.bind_assoc]
            refine claim_rule (Stable.picking lockedJob) picking lockedJob ?_
              (fun rows here => here.2.2) (fun _ _ => rfl) ?_
            · intro key mem
              have := kinds key mem
              omega
            intro rows here fresh
            have stable : Stable (Rely exact)
                ([Key.attemptEntry attemptId, .openAttempt job.id]
                ++ (Key.job job.id :: (more ++ [])))
                (fun rows =>
                  Picking exact began job rows
                  ∧ (Key.attemptEntry attemptId).present rows = false) :=
              (Stable.picking (by simp)).and (Stable.absent (by simp))
            refine done_rule stable ⟨here, fresh⟩ ?_
            rintro rows ⟨⟨consistent, same, picked⟩, fresh⟩
            refine ⟨?_, by simp [Verb.fences]⟩
            rw [view_claim]
            exact claims_picked picked (by simp) (by simpa [Key.present] using fresh)
              consistent.uniqueRepo (by simp [own]) (fun _ repo => by simp [own, Database.activeOf,
                Database.repo?])

end Ledger
