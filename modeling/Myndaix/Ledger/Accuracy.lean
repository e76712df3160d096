import Myndaix.Ledger.Ownership
import Myndaix.Ledger.Recount

/-! Accuracy: as long as the verbs run one at a time and nothing else moves the counters, every
soft counter is the hard count, and the floors of the decrements never act.
-/

namespace Ledger

open Interaction Relational Transactions

/-- The verb moves a counter from outside. -/
def Verb.drifts : Verb → Bool
  | .drift .. => true
  | _ => false

section Settles

variable {config : Config} {verb : Verb} {database later : Database}
  {closeRow : Attempt → Attempt} {moveRow : Job → Job} {replies : List Outbound}
  {letters : List DeadLetter}
  (settles : Settles config True verb database later closeRow moveRow replies letters)

include settles

/-- Alone, a job moves only together with its open attempt. -/
theorem Settles.unorphaned (accurate : Accurate database)
    : ∀ attempt ∈ later.attempts, ∀ job,
        attempt.status = .open_ → later.job? attempt.jobId = some job
        → job.status.live = true := by
  intro closed mem job isOpen found
  rw [settles.attempts] at mem
  obtain ⟨attempt, inside, rfl⟩ := List.mem_map.mp mem
  have wasOpen := settles.wasOpen inside isOpen
  rw [(settles.closeKept attempt).2, settles.job?] at found
  obtain ⟨before, foundBefore, rfl⟩ := Option.map_eq_some_iff.mp found
  have live := accurate.unorphaned attempt inside before wasOpen foundBefore
  rcases settles.settled attempt inside before foundBefore wasOpen isOpen with same | ⟨_, apart⟩
  · rw [same]
    exact live
  · exact absurd trivial apart

/-- The hard count falls by the attempts that are closed. -/
theorem Settles.openNow_freed (accurate : Accurate database) (repo : String)
    : database.openNow repo = later.openNow repo + freed database closeRow repo := by
  unfold Database.openNow freed
  rw [settles.attempts]
  refine countP_map_add (fun attempt inside => ?_) (fun attempt inside counts => ?_)
  · rw [Database.liveOn, Database.liveOn, (settles.closeKept attempt).2, settles.job?]
    by_cases isOpen : attempt.status = .open_
    · cases found : database.job? attempt.jobId with
      | none => simp
      | some job =>
          have live := accurate.unorphaned attempt inside job isOpen found
          by_cases still : (closeRow attempt).status = .open_
          · rcases settles.settled attempt inside job found isOpen still with same | ⟨_, apart⟩
            · simp [isOpen, still, same]
            · exact absurd trivial apart
          · simp [isOpen, still, live]
    · simp [settles.closes attempt inside isOpen, isOpen]
  · simp only [Database.liveOn, Bool.and_eq_true, decide_eq_true_eq] at counts
    simp [counts.1]

/-- Every verb but drifting and reconciling accounts for what it closes. -/
theorem Settles.accurate (accurate : Accurate database) (drifts : verb.drifts = false)
    (counted
      : verb.reconciles = true → ∀ repo, later.activeOf repo = later.openNow repo)
    : Accurate later where
  active repo := by
    have fewer := settles.openNow_freed accurate repo
    have before := accurate.active repo
    have accounted := settles.accounted
    cases verb with
    | reconcileRepoConcurrency now => exact counted rfl repo
    | drift _ _ => cases drifts
    | leaseJob worker skipRepos attemptId now =>
        obtain ⟨none_, written⟩ := accounted repo
        have same : later.openNow repo = database.openNow repo := by omega
        rw [same]
        exact (written trivial).elim (fun kept => kept.trans before) id
    | _ =>
        have written := accounted repo
        rw [written]
        split
        · omega
        · omega
  unorphaned := settles.unorphaned accurate

end Settles

section Commits

variable {config : Config} {verb : Verb} {held : List Key} {database later : Database}

/-- A claim opens one attempt and counts it. -/
theorem Claims.accurate {job : Job} {attempt : Attempt}
    (claims : Claims config True held database later job attempt)
    (holds : Consistent database) (accurate : Accurate database)
    : Accurate later where
  active repo := by
    rw [claims.accounted trivial, claims.openNow holds]
    by_cases own : job.repoId = some repo
    · simp [own]
    · simpa [own] using accurate.active repo
  unorphaned := by
    intro row mem moved isOpen found
    rw [claims.attempts] at mem
    by_cases own : row.jobId = job.id
    · rw [own, claims.leased] at found
      rw [← Option.some.inj found]
      rfl
    · rw [claims.otherJob own] at found
      rcases List.mem_append.mp mem with old | new
      · exact accurate.unorphaned row old moved isOpen found
      · rw [List.mem_singleton.mp new] at own
        exact absurd claims.sameJob own

/-- A new job has no attempts. -/
theorem Admits.accurate {job : Job} {letters : List DeadLetter}
    (admits : Admits held database later job letters) (holds : Consistent database)
    (accurate : Accurate database)
    : Accurate later where
  active repo := by
    rw [admits.openNow holds, Database.activeOf, Database.repo?, admits.repoConcurrency]
    exact accurate.active repo
  unorphaned := by
    intro row mem owner isOpen found
    rw [admits.attempts] at mem
    have owned := holds.attemptJob row mem
    obtain ⟨before, foundBefore⟩ := Option.isSome_iff_exists.mp owned
    rw [admits.job? foundBefore] at found
    exact accurate.unorphaned row mem owner isOpen (foundBefore.trans found)

/-- A commit of a verb that ran alone keeps the counters accurate. -/
theorem Commit.accurate (commit : Commit config True verb held database later)
    (holds : Consistent database) (accurate : Accurate database)
    (drifts : verb.drifts = false)
    (counted
      : verb.reconciles = true → ∀ repo, later.activeOf repo = later.openNow repo)
    : Accurate later := by
  cases commit with
  | quiet => exact accurate
  | settle settles => exact settles.accurate accurate drifts counted
  | claim claims => exact claims.accurate holds accurate
  | admission admits => exact admits.accurate holds accurate
  | ingest receives =>
      rw [receives.same]
      exact ⟨accurate.active, accurate.unorphaned⟩
  | deliver outbox delivers =>
      rw [delivers.same]
      exact ⟨accurate.active, accurate.unorphaned⟩
  | enqueue enqueues =>
      rw [enqueues.same]
      exact ⟨accurate.active, accurate.unorphaned⟩

end Commits

section Runs

variable {config : Config} {database : Database}

/-- The counters are accurate after every run of verbs, one at a time and without drift, by
induction on the run.
-/
theorem accurate_of_serial
    (serial : Serial store (code config) (fun verb => verb.drifts = false) .empty database)
    : Consistent database ∧ Accurate database := by
  induction serial with
  | start => exact ⟨Consistent.empty, fun _ => rfl, by simp [Database.empty]⟩
  | @step before result after _ verb drifts ran ih =>
      obtain ⟨holds, accurate⟩ := ih
      obtain ⟨holds', held, commit⟩ := alone_commit holds ran
      refine ⟨holds', commit.accurate holds accurate drifts (fun reconciles repo => ?_)⟩
      cases verb with
      | reconcileRepoConcurrency now =>
          obtain ⟨_, later, ran', counted⟩ := reconcile_alone config now before
          obtain ⟨_, rfl⟩ := Prod.mk.inj (Except.ok.inj (ran'.symm.trans ran))
          exact counted repo
      | _ => cases reconciles

/-- A store without floors makes the same change where no floor acts. -/
theorem storeWith_id_apply {place : Place Database Key Change} {change : Change}
    (noFloor : NoFloor place change) (accurate : Accurate place.committed)
    : (storeWith id).apply change (store.viewAt place)
      = store.apply change (store.viewAt place) := by
  cases change with
  | decrement repo slots =>
      simp only [store, storeWith, Change.apply, Relational.update, id_eq]
      congr 1
      refine List.map_congr_left (fun row mem => ?_)
      by_cases own : row.repoId = repo
      · have bounded := noFloor repo slots rfl accurate row mem own
        rw [max_eq_left (Int.sub_nonneg_of_le bounded)]
      · simp [own]
  | _ => rfl

/-- Without the floors every verb would do the same in an accurate ledger. -/
theorem floors_idle (verb : Verb) (holds : Consistent database) (accurate : Accurate database)
    : (storeWith id).alone (code config verb) database
      = store.alone (code config verb) database := by
  have kept : Keeps config True verb := verbs_keep verb
  have same
      : (storeWith id).alone (code config verb) (store.view database [])
        = store.alone (code config verb) (store.view database []) := by
    refine Ensures.alone_agrees rfl ?_ (kept database holds)
    intro locks changes change permitted
    have noFloor : NoFloor ⟨database, locks, changes⟩ change := by
      rcases permitted with written | ⟨keys, inserted⟩
      · exact written.2
      · exact inserted.2.2
    exact storeWith_id_apply noFloor accurate
  exact same

/-- Soft counter accuracy: after every run of verbs one at a time from an empty ledger, every
counter is the hard count and no floor ever acts; and from any rows whatever, one
`reconcile_repo_concurrency` alone brings every counter to the hard count.
-/
theorem counters_accurate
    : (∀ database,
        Serial store (code config) (fun verb => verb.drifts = false) .empty database
        → (∀ repo, database.activeOf repo = database.openNow repo)
          ∧ ∀ verb,
              (storeWith id).alone (code config verb) database
                = store.alone (code config verb) database)
      ∧ ∀ database now,
          ∃ reply later,
            store.alone (code config (.reconcileRepoConcurrency now)) database
              = .ok (reply, later)
            ∧ ∀ repo, later.activeOf repo = later.openNow repo := by
  refine ⟨fun database serial => ?_, fun database now => reconcile_alone config now database⟩
  obtain ⟨holds, accurate⟩ := accurate_of_serial serial
  exact ⟨accurate.active, fun verb => floors_idle verb holds accurate⟩

/-- A leased job is counted. -/
theorem counters_accurate_sample
    : (sampleState sampleLeasing).activeOf "repo" = 1
      ∧ ∀ repo,
          (sampleState sampleLeasing).activeOf repo = (sampleState sampleLeasing).openNow repo :=
  ⟨by decide,
    (counters_accurate.1 _
      (sample_serial (fun verb => verb.drifts = false) sampleLeasing (by decide))).1⟩

end Runs

end Ledger
