import Mathlib.Data.List.Dedup
import Mathlib.Data.String.Basic
import Myndaix.Ledger.Orphans

/-! The contract of `reclaim_expired`: one commit closes orphans and expired leases, decides
every expired job once, and frees all the slots in the order of the repositories' names.
-/

namespace Ledger

open Interaction Relational Transactions

variable {config : Config} {exact : Prop} {began : Database}

/-- An open attempt of a leased or running job. -/
def Expired (row : Attempt × Job) (rows : Database) : Prop :=
  PlacedOpen row rows
  ∧ ∃ job, rows.job? row.2.id = some job ∧ row.2.Continues job ∧ job.status.live = true

theorem Stable.expired {held : List Key} {row : Attempt × Job}
    (lockedAttempt : Key.attempt row.1.id ∈ held) (lockedJob : Key.job row.2.id ∈ held)
    : Stable (Rely exact) held (Expired row) :=
  (Stable.placedOpen lockedAttempt).and
    (Stable.exists fun _ => (Stable.job lockedJob).and (Stable.const _))

/-- What reclaiming does to an attempt's row. -/
def reclaimAttempt (orphans batch : List (Attempt × Job)) (healedAt now : Time)
    (attempt : Attempt)
    : Attempt :=
  closeAmong (batch.map (fun row => row.1.id)) .failed now none (some .retryable)
    (closeAmong (orphans.map (fun row => row.1.id)) .failed healedAt none (some .terminal)
      attempt)

/-- What reclaiming does to a job's row. -/
def reclaimJob (fates : Fates) (job : Job) : Job :=
  setAmong (fates.dead.map DeadLetter.sourceId) .dead (setAmong fates.requeue .queued job)

/-- A batch under way: its rows are open attempts, each at most once, and every expired job has
got one fate.
-/
structure Reclaiming (config : Config) (orphans batch : List (Attempt × Job)) (fates : Fates)
    (rows : Database)
    : Prop where
  consistent : Consistent rows
  nodup : ((orphans ++ batch).map (fun row => row.1.id)).Nodup
  orphan : ∀ row ∈ orphans, Orphan row rows
  expired : ∀ row ∈ batch, Expired row rows
  decided
    : (fates.requeue ++ fates.dead.map DeadLetter.sourceId).Perm
        (batch.map (fun row => row.2.id))
  safe
    : ∀ id ∈ fates.requeue, ∃ row ∈ batch,
        row.2.id = id
        ∧ config.requeueSafe row.2.toAgent = true
        ∧ rows.attemptCount id < maxAttempts

namespace Reclaiming

variable {orphans batch : List (Attempt × Job)} {fates : Fates} {rows : Database}
  (reclaiming : Reclaiming config orphans batch fates rows)

include reclaiming

theorem placed {row : Attempt × Job} (mem : row ∈ orphans ++ batch) : PlacedOpen row rows :=
  (List.mem_append.mp mem).elim (fun inside => (reclaiming.orphan row inside).1)
    (fun inside => (reclaiming.expired row inside).1)

/-- A job has one open attempt, so the batch has every job once. -/
theorem jobs_nodup : (batch.map (fun row => row.2.id)).Nodup := by
  have nodup := reclaiming.nodup
  rw [List.map_append] at nodup
  have own := (List.nodup_append.mp nodup).2.1
  refine List.Nodup.map_on ?_ (List.Nodup.of_map _ own)
  intro first mem second member' same
  obtain ⟨attempt, found, isOpen, belongs⟩ := (reclaiming.expired first mem).1
  obtain ⟨attempt', found', isOpen', belongs'⟩ := (reclaiming.expired second member').1
  have one := reclaiming.consistent.sameOpen (lookup_mem found) (lookup_mem found') isOpen
    isOpen' (belongs.trans (same.trans belongs'.symm))
  refine List.inj_on_of_nodup_map own mem member' ?_
  exact (lookup_key found).symm.trans ((congrArg Attempt.id one).trans (lookup_key found'))

theorem fates_nodup : (fates.requeue ++ fates.dead.map DeadLetter.sourceId).Nodup :=
  reclaiming.decided.nodup_iff.mpr reclaiming.jobs_nodup

theorem closing (healedAt now : Time)
    : Closing rows (reclaimAttempt orphans batch healedAt now)
        ((orphans ++ batch).map (fun row => row.1.id)) where
  nodup := reclaiming.nodup
  each := by
    intro id listed
    obtain ⟨row, mem, rfl⟩ := List.mem_map.mp listed
    obtain ⟨attempt, found, isOpen, _⟩ := reclaiming.placed mem
    exact ⟨attempt, found, isOpen⟩
  kept := by
    intro attempt
    have first := closeAmong_kept (orphans.map (fun row => row.1.id)) .failed healedAt none
      (some .terminal) attempt
    have second := closeAmong_kept (batch.map (fun row => row.1.id)) .failed now none
      (some .retryable) (closeAmong (orphans.map (fun row => row.1.id)) .failed healedAt none
        (some .terminal) attempt)
    exact ⟨second.1.trans first.1, second.2.trans first.2⟩
  hit := by
    intro attempt listed
    rw [List.map_append, List.mem_append] at listed
    simp only [reclaimAttempt, closeAmong]
    by_cases orphan : attempt.id ∈ orphans.map (fun row => row.1.id)
    · simp only [orphan, if_true]
      split
      · exact close_status _ _ _ _ _
      · exact close_status _ _ _ _ _
    · simp only [orphan, listed.resolve_left orphan, if_true, if_false]
      exact close_status _ _ _ _ _
  miss := by
    intro attempt _ unlisted
    rw [List.map_append, List.mem_append, not_or] at unlisted
    simp only [reclaimAttempt, closeAmong, unlisted, if_false]
  missClosed := by
    intro attempt _ unlisted _
    rw [List.map_append, List.mem_append, not_or] at unlisted
    simp only [reclaimAttempt, closeAmong, unlisted, if_false]

/-- A job is in the batch and live, with the fate that was decided, or it stays as it is. -/
theorem fate {job : Job} (mem : job ∈ rows.jobs)
    : (job.id ∈ fates.requeue ++ fates.dead.map DeadLetter.sourceId
        ∧ job.status.live = true
        ∧ (reclaimJob fates job).status
          = if job.id ∈ fates.dead.map DeadLetter.sourceId then .dead else .queued)
      ∨ (job.id ∉ fates.requeue ++ fates.dead.map DeadLetter.sourceId
        ∧ reclaimJob fates job = job) := by
  by_cases decided : job.id ∈ fates.requeue ++ fates.dead.map DeadLetter.sourceId
  · refine Or.inl ⟨decided, ?_, ?_⟩
    · obtain ⟨row, inside, same⟩ := List.mem_map.mp (reclaiming.decided.mem_iff.mp decided)
      obtain ⟨_, own, found, _, live⟩ := reclaiming.expired row inside
      have here := lookup_of_mem reclaiming.consistent.uniqueJob mem
      rw [same] at found
      rwa [Option.some.inj (here.symm.trans found)]
    · have kept : (setAmong fates.requeue .queued job).id = job.id :=
        (congrArg Job.id (setAmong_kept fates.requeue .queued job)).trans rfl
      simp only [reclaimJob]
      rw [setAmong, kept]
      split
      · rfl
      · rename_i survives
        have requeued := (List.mem_append.mp decided).resolve_right survives
        simp [setAmong, requeued]
  · refine Or.inr ⟨decided, ?_⟩
    rw [List.mem_append, not_or] at decided
    simp only [reclaimJob, setAmong, decided, if_false]

omit reclaiming in
theorem reclaimJob_kept (job : Job)
    : reclaimJob fates job
      = {
          job with
          status := (reclaimJob fates job).status,
          artifactRef := (reclaimJob fates job).artifactRef
        } := by
  unfold reclaimJob
  rw [setAmong_kept, setAmong_kept]

/-- The batch frees as many slots of a repository as it names it. -/
theorem freed (healedAt now : Time) (repo : String)
    : freed rows (reclaimAttempt orphans batch healedAt now) repo
      = (reposOf orphans ++ reposOf batch).count repo := by
  rw [(reclaiming.closing healedAt now).freed reclaiming.consistent, List.countP_map, reposOf,
    reposOf, ← List.filterMap_append, List.count_filterMap]
  refine List.countP_congr (fun row mem => ?_)
  have own : repoOfAttempt rows row.1.id = row.2.repoId := by
    obtain ⟨attempt, found, _, belongs⟩ := reclaiming.placed mem
    rw [repoOfAttempt, found, Option.bind_some, belongs]
    rcases List.mem_append.mp mem with orphan | expired
    · rw [(reclaiming.orphan row orphan).2.1]
      rfl
    · obtain ⟨_, job, found, continues, _⟩ := reclaiming.expired row expired
      rw [found]
      exact continues.repoId
  simp [own]

/-- The counters of these repositories have their rows. -/
theorem present {repo : String} (named : repo ∈ reposOf orphans ++ reposOf batch)
    : (rows.repo? repo).isSome = true := by
  rw [reposOf, reposOf, ← List.filterMap_append] at named
  obtain ⟨row, mem, own⟩ := List.mem_filterMap.mp named
  obtain ⟨attempt, found, isOpen, belongs⟩ := reclaiming.placed mem
  have counted (job : Job) (foundJob : rows.job? row.2.id = some job)
      (ofRepo : job.repoId = some repo)
      : (rows.repo? repo).isSome = true :=
    reclaiming.consistent.counted attempt (lookup_mem found) job repo isOpen
      (by rw [belongs]; exact foundJob) ofRepo
  rcases List.mem_append.mp mem with orphan | expired
  · exact counted row.2 (reclaiming.orphan row orphan).2.1 own
  · obtain ⟨_, job, foundJob, continues, _⟩ := reclaiming.expired row expired
    exact counted job foundJob (continues.repoId.trans own)

end Reclaiming

/-- Reclaiming as one commit, of whichever verb. -/
theorem settles_reclaim {verb : Verb} {orphans batch : List (Attempt × Job)} {fates : Fates}
    {rows : Database} {healedAt now : Time} {table : List RepoConcurrency}
    (reclaiming : Reclaiming config orphans batch fates rows)
    (unique : Relational.Unique RepoConcurrency.repoId table)
    (buries : ∀ letter ∈ fates.dead, verb.buries = true)
    (accounted
      : ∀ later : Database,
          later.repoConcurrency = table
          → Accounted exact verb rows later (reclaimAttempt orphans batch healedAt now))
    : Settles config exact verb rows
        {
          rows with
          attempts := rows.attempts.map (reclaimAttempt orphans batch healedAt now),
          jobs := rows.jobs.map (reclaimJob fates),
          repoConcurrency := table,
          deadLetters := rows.deadLetters ++ fates.dead
        }
        (reclaimAttempt orphans batch healedAt now) (reclaimJob fates) [] fates.dead := by
  have holds := reclaiming.consistent
  have closing := reclaiming.closing healedAt now
  have nodup := List.nodup_append.mp reclaiming.fates_nodup
  exact {
    inboundEvents := rfl
    attempts := rfl
    jobs := rfl
    outbound := by simp
    deadLetters := rfl
    uniqueRepo := unique
    uniqueOutbound := by simpa using holds.uniqueOutbound
    closeKept := closing.kept
    moveKept := Reclaiming.reclaimJob_kept
    closes := fun attempt mem closed => closing.closes holds mem closed
    moves := by
      intro job mem
      rcases reclaiming.fate mem with ⟨_, live, moved⟩ | ⟨_, same⟩
      · refine Or.inr ⟨JobStatus.terminal_of_live live, ?_⟩
        rw [moved]
        split <;> rfl
      · exact Or.inl same
    settled := by
      intro attempt mem job found isOpen stays
      refine closing.settled holds (fun row inside => ?_) mem found isOpen stays
      rcases reclaiming.fate inside with ⟨decided, _, _⟩ | ⟨_, same⟩
      · obtain ⟨item, listed, own⟩ := List.mem_map.mp (reclaiming.decided.mem_iff.mp decided)
        obtain ⟨⟨other, foundOther, _, belongs⟩, _⟩ := reclaiming.expired item listed
        refine Or.inr (Or.inl ⟨item.1.id, ?_, other, foundOther, belongs.trans own⟩)
        exact List.mem_map_of_mem (List.mem_append_right orphans listed)
      · exact Or.inl same
    released := by
      intro attempt mem job found isOpen closed
      have listed := (closing.listed_iff holds mem).mpr ⟨isOpen, closed⟩
      have own := lookup_of_mem holds.uniqueAttempt mem
      have jobId : job.id = attempt.jobId := lookup_key found
      obtain ⟨item, inside, same⟩ := List.mem_map.mp listed
      obtain ⟨row, foundRow, _, belongs⟩ := reclaiming.placed inside
      rw [same] at foundRow
      obtain rfl := Option.some.inj (foundRow.symm.trans own)
      rcases reclaiming.fate (lookup_mem found) with ⟨_, _, moved⟩ | ⟨undecided, unmoved⟩
      · rw [moved]
        split <;> rfl
      · rcases List.mem_append.mp inside with orphan | expired
        · obtain ⟨_, foundJob, dead⟩ := reclaiming.orphan item orphan
          rw [← belongs] at foundJob
          obtain rfl := Option.some.inj (foundJob.symm.trans found)
          rw [unmoved, dead]
          rfl
        · refine absurd (reclaiming.decided.mem_iff.mpr ?_) undecided
          exact List.mem_map.mpr ⟨item, expired, belongs.symm.trans jobId.symm⟩
    requeued := by
      intro job mem queued
      rcases reclaiming.fate mem with ⟨decided, _, moved⟩ | ⟨_, same⟩
      · have survives : job.id ∉ fates.dead.map DeadLetter.sourceId := by
          intro dead
          rw [moved, if_pos dead] at queued
          cases queued
        have requeued := (List.mem_append.mp decided).resolve_right survives
        obtain ⟨item, inside, same, safe, below⟩ := reclaiming.safe job.id requeued
        obtain ⟨_, row, found, continues, _⟩ := reclaiming.expired item inside
        have own := lookup_of_mem holds.uniqueJob mem
        rw [same] at found
        obtain rfl := Option.some.inj (found.symm.trans own)
        exact Or.inr ⟨by rw [continues.toAgent]; exact safe, below⟩
      · exact Or.inl same
    replied := by
      intro job mem
      rw [if_neg]
      · rfl
      · rintro ⟨unfinished, finished, _⟩
        rcases reclaiming.fate mem with ⟨_, _, moved⟩ | ⟨_, same⟩
        · rw [moved] at finished
          split at finished <;> cases finished
        · rw [same] at finished
          exact unfinished finished
    replyRows := by simp
    buried := by
      intro _ job mem live
      have letters : fates.dead.countP (fun letter => letter.sourceId = job.id)
          = (fates.dead.map DeadLetter.sourceId).count job.id := by
        rw [List.count, List.countP_map]
        exact List.countP_congr (fun letter _ => by simp)
      rw [letters]
      rcases reclaiming.fate mem with ⟨_, _, moved⟩ | ⟨undecided, same⟩
      · rw [moved]
        by_cases dead : job.id ∈ fates.dead.map DeadLetter.sourceId
        · simp [dead, List.count_eq_one_of_mem nodup.2.1 dead]
        · simp only [dead, if_false]
          exact List.count_eq_zero_of_not_mem dead
      · rw [List.mem_append, not_or] at undecided
        rw [List.count_eq_zero_of_not_mem undecided.2, same, if_neg]
        intro dead
        simp [dead, JobStatus.live] at live
    letterRows := by
      intro letter listed
      have decided : letter.sourceId ∈ fates.requeue ++ fates.dead.map DeadLetter.sourceId :=
        List.mem_append_right _ (List.mem_map_of_mem listed)
      obtain ⟨item, inside, same⟩ := List.mem_map.mp (reclaiming.decided.mem_iff.mp decided)
      obtain ⟨_, job, found, _, live⟩ := reclaiming.expired item inside
      rw [same] at found
      exact ⟨buries letter listed, job, lookup_mem found, lookup_key found, Or.inl live⟩
    accounted := accounted _ rfl
  }

section Steps

variable {healedAt now : Time} {Answer : Type}
  {post : Answer → Place Database Key Change → Prop}

theorem attempt?_closeAttempts (rows : Database) (ids : List Id) (ended : AttemptEnd)
    (endedAt : Time) (result : Option Result) (errorClass : Option ErrorClass) (id : Id)
    : (store.view rows [.closeAttempts ids ended endedAt result errorClass]).attempt? id
      = (rows.attempt? id).map (closeAmong ids ended endedAt result errorClass) := by
  rw [Store.view_cons, Store.view_nil, apply_closeAttempts]
  exact lookup_map (fun attempt => (closeAmong_kept _ _ _ _ _ attempt).1)

/-- The change that heals these orphans. -/
def healing (orphans : List (Attempt × Job)) (healedAt : Time) : Change :=
  .closeAttempts (orphans.map (fun row => row.1.id)) .failed healedAt none (some .terminal)

/-- The change that closes this batch. -/
def reclaiming (batch : List (Attempt × Job)) (now : Time) : Change :=
  .closeAttempts (batch.map (fun row => row.1.id)) .failed now none (some .retryable)

/-- What is known once orphans are closed. -/
def Healed (orphans : List (Attempt × Job)) (rows : Database) : Prop :=
  Consistent rows ∧ ∀ row, row ∈ orphans → Orphan row rows

theorem Stable.healed {held : List Key} {orphans : List (Attempt × Job)}
    (locked : ∀ row ∈ orphans, Key.attempt row.1.id ∈ held)
    : Stable (Rely exact) held (Healed orphans) :=
  Stable.consistent.and (Stable.all fun row => Stable.given fun mem =>
    Stable.orphan (locked row mem))

/-- Closing expired leases hands out open attempts of live jobs, other than the orphans. -/
theorem closeExpired_rule {orphans : List (Attempt × Job)}
    {next : List (Attempt × Job) → Txn Answer} {held : List Key} {rows : Database}
    (lockedOrphans : ∀ row ∈ orphans, Key.attempt row.1.id ∈ held) (here : Healed orphans rows)
    (nodup : (orphans.map (fun row => row.1.id)).Nodup)
    (continues
      : ∀ batch more rows,
          Healed orphans rows
          → ((orphans ++ batch).map (fun row => row.1.id)).Nodup
          → (∀ row ∈ batch,
              Expired row rows ∧ Key.attempt row.1.id ∈ more ∧ Key.job row.2.id ∈ more)
          → (∀ key ∈ more, key.kind ≤ 1)
          → (next batch).Ensures
              (ledgerSetting config exact (.reclaimExpired healedAt now) began) post
              ⟨rows, more ++ held, [healing orphans healedAt, reclaiming batch now]⟩)
    : (closeExpired config now >>= next).Ensures
        (ledgerSetting config exact (.reclaimExpired healedAt now) began) post
        ⟨rows, held, [healing orphans healedAt]⟩ := by
  simp only [closeExpired, Program.bind_assoc]
  refine look_rule (Stable.healed lockedOrphans) here (fun before here => ?_)
  generalize same : store.view before [healing orphans healedAt] = snapshot
  have jobs (id : Id) : snapshot.job? id = before.job? id := by
    rw [← same]
    simp [healing]
  have attempts (id : Id) : snapshot.attempt? id = (before.attempt? id).map
        (closeAmong (orphans.map (fun row => row.1.id)) .failed healedAt none
          (some .terminal)) := by
    rw [← same]
    exact attempt?_closeAttempts before _ _ _ _ _ id
  have unique : Relational.Unique Attempt.id snapshot.attempts := by
    rw [← same]
    simpa [healing] using here.1.uniqueAttempt.map (fun attempt =>
      (closeAmong_kept (orphans.map (fun row => row.1.id)) .failed healedAt none
        (some .terminal) attempt).1)
  have joinedRow {row : Attempt × Job}
      (mem : row ∈ config.scan ((joined snapshot).filter (expired now snapshot)))
      : Placed row before ∧ before.job? row.2.id = some row.2 := by
    have inside := (List.mem_filter.mp ((config.scan_perm _).mem_iff.mp mem)).1
    obtain ⟨inside, found⟩ := mem_joined.mp inside
    have identity : row.2.id = row.1.jobId := lookup_key found
    have own : snapshot.attempt? row.1.id = some row.1 := lookup_of_mem unique inside
    rw [attempts] at own
    obtain ⟨attempt, foundAttempt, closed⟩ := Option.map_eq_some_iff.mp own
    refine ⟨⟨attempt, foundAttempt, ?_⟩, by rw [identity, ← jobs]; exact found⟩
    rw [identity, ← closed]
    exact (closeAmong_kept _ _ _ _ _ attempt).2.symm
  have stable (held : List Key) (locked : ∀ row ∈ orphans, Key.attempt row.1.id ∈ held)
      : Stable (Rely exact) held (fun rows =>
          Healed orphans rows
          ∧ ∀ row,
              row ∈ config.scan ((joined snapshot).filter (expired now snapshot))
              → Placed row rows
                ∧ ∃ job, rows.job? row.2.id = some job ∧ row.2.Continues job) :=
    (Stable.healed locked).and (Stable.all fun row => Stable.given fun _ =>
      Stable.placed.and Stable.jobRow)
  refine select_rule
    (fun row rows => Expired row rows ∧ row.1.id ∉ orphans.map (fun row => row.1.id)) ?_
    (stable held lockedOrphans)
    ⟨here, fun row mem => ⟨(joinedRow mem).1, row.2, (joinedRow mem).2, .refl row.2⟩⟩
    ?_ ?_
  · intro row held locked
    exact (Stable.expired (locked _ (by simp)) (locked _ (by simp))).and (Stable.const _)
  · rintro row mem rows ⟨_, known⟩ passes
    obtain ⟨⟨attempt, found, own⟩, job, foundJob, continues⟩ := known row mem
    have seen : (store.view rows [healing orphans healedAt]).job? row.2.id
        = rows.job? row.2.id := by
      simp [healing]
    have identity : attempt.id = row.1.id := lookup_key found
    simp only [expired, healing, attempt?_closeAttempts, found, Option.map_some,
      Option.any_some, Bool.and_eq_true, decide_eq_true_eq] at passes
    rw [← healing, seen, foundJob] at passes
    obtain ⟨⟨isOpen, _⟩, live⟩ := passes
    have unhealed : row.1.id ∉ orphans.map (fun row => row.1.id) := by
      intro healed
      rw [closeAmong, if_pos (by rw [identity]; exact healed)] at isOpen
      exact close_status _ _ _ _ _ isOpen
    rw [closeAmong, if_neg (by rw [identity]; exact unhealed)] at isOpen
    exact ⟨⟨⟨attempt, found, isOpen, own⟩, job, foundJob, continues, by simpa using live⟩,
      unhealed⟩
  · intro batch more rows here sub bound each within
    have locked (row : Attempt × Job) (mem : row ∈ batch)
        : Key.attempt row.1.id ∈ more ∧ Key.job row.2.id ∈ more :=
      ⟨(each row mem).2 _ (by simp), (each row mem).2 _ (by simp)⟩
    have stable : Stable (Rely exact) (more ++ held) (fun rows =>
          Healed orphans rows ∧ ∀ row, row ∈ batch → Expired row rows) := by
      refine (Stable.healed fun row mem => ?_).and
        (Stable.all fun row => Stable.given fun mem => ?_)
      · exact List.mem_append_right more (lockedOrphans row mem)
      · exact Stable.expired (List.mem_append_left held (locked row mem).1)
          (List.mem_append_left held (locked row mem).2)
    refine write_rule stable ⟨here.1, fun row mem => (each row mem).1.1⟩ ?_
      (fun _ _ => noFloor_of_other (by simp)) ?_
    · intro key mem
      simp only [Change.keys, List.map_map, List.mem_map, Function.comp_apply] at mem
      obtain ⟨row, inside, rfl⟩ := mem
      exact List.mem_append_left held (locked row inside).1
    · intro rows here
      refine continues batch more rows here.1 ?_
        (fun row mem => ⟨here.2 row mem, locked row mem⟩) ?_
      · rw [List.map_append]
        refine List.nodup_append.mpr
          ⟨nodup, selected_nodup unique (config.scan_perm _) sub, ?_⟩
        rintro _ healed id listed rfl
        obtain ⟨row, mem, rfl⟩ := List.mem_map.mp listed
        exact (each row mem).1.2 healed
      · intro key mem
        obtain ⟨row, _, inside⟩ := within key mem
        simp only [List.mem_cons, List.not_mem_nil, or_false] at inside
        rcases inside with rfl | rfl <;> simp [Key.kind]

/-- These jobs may run again, and none has reached the ceiling. -/
def Runnable (config : Config) (batch : List (Attempt × Job)) (ids : List Id) (rows : Database)
    : Prop :=
  ∀ id, id ∈ ids → ∃ row ∈ batch,
    row.2.id = id
    ∧ config.requeueSafe row.2.toAgent = true
    ∧ rows.attemptCount id < maxAttempts

theorem Stable.runnable {held : List Key} {batch : List (Attempt × Job)} {ids : List Id}
    (locked : ∀ row ∈ batch, Key.job row.2.id ∈ held)
    : Stable (Rely exact) held (Runnable config batch ids) := by
  intro rows later moved runnable id mem
  obtain ⟨row, inside, own, safe, below⟩ := runnable id mem
  have same : later.attemptCount id = rows.attemptCount id :=
    Stable.attemptCount (own ▸ locked row inside) moved rfl
  exact ⟨row, inside, own, safe, same ▸ below⟩

theorem reclaimReason_none {toAgent : String} {attempts : Nat}
    (survives : reclaimReason config toAgent attempts = none)
    : config.requeueSafe toAgent = true ∧ attempts < maxAttempts := by
  unfold reclaimReason at survives
  split at survives
  · cases survives
  · split at survives
    · cases survives
    · rename_i safe below
      exact ⟨by simpa using safe, Nat.lt_of_not_le below⟩

/-- Deciding a batch gives every one of its jobs one fate. -/
theorem decideFates_rule {verb : Verb} {batch : List (Attempt × Job)}
    {next : Fates → Txn Answer} {fact : Database → Prop} {held : List Key}
    {changes : List Change} {rows : Database} (stable : Stable (Rely exact) held fact)
    (here : fact rows) (locked : ∀ row ∈ batch, Key.job row.2.id ∈ held)
    (counted
      : ∀ rows id, (store.view rows changes).attemptCount id = rows.attemptCount id)
    (continues
      : ∀ fates rows,
          fact rows
          → (fates.requeue ++ fates.dead.map DeadLetter.sourceId).Perm
              (batch.map (fun row => row.2.id))
          → Runnable config batch fates.requeue rows
          → (next fates).Ensures (ledgerSetting config exact verb began) post
              ⟨rows, held, changes⟩)
    : (decideFates config batch >>= next).Ensures (ledgerSetting config exact verb began) post
        ⟨rows, held, changes⟩ := by
  have invariant (fates : Fates) (done : List (Attempt × Job))
      : Stable (Rely exact) held (fun rows =>
          (fact rows ∧ Runnable config batch fates.requeue rows)
          ∧ (fates.requeue ++ fates.dead.map DeadLetter.sourceId).Perm
              (done.map (fun row => row.2.id))) :=
    (stable.and (Stable.runnable locked)).and (Stable.const _)
  refine fold_rule (fun _ => held) (fun _ => changes) _ invariant ?_
    ⟨⟨here, fun _ mem => by cases mem⟩, List.Perm.refl []⟩ rfl rfl
    (fun fates rows here => continues fates rows here.1.1 here.2 here.1.2)
  intro fates done row rest rows split here
  refine look_rule (invariant fates done) here (fun counting here => ?_)
  rw [counted]
  have stable' : Stable (Rely exact) held (fun rows =>
        ((fact rows ∧ Runnable config batch fates.requeue rows)
        ∧ (fates.requeue ++ fates.dead.map DeadLetter.sourceId).Perm
            (done.map (fun row => row.2.id)))
        ∧ rows.attemptCount row.2.id = counting.attemptCount row.2.id) :=
    (invariant fates done).and (Stable.attemptCount (locked row (by simp [split])))
  have mem : row ∈ batch := by simp [split]
  cases decided : reclaimReason config row.2.toAgent (counting.attemptCount row.2.id) with
  | none =>
      refine done_rule stable' ⟨here, rfl⟩ ?_
      rintro rows ⟨⟨⟨here, runnable⟩, perm⟩, same⟩
      refine ⟨rows, rfl, ⟨here, ?_⟩, ?_⟩
      · intro id listed
        rcases List.mem_append.mp listed with old | new
        · exact runnable id old
        · obtain rfl := List.mem_singleton.mp new
          obtain ⟨safe, below⟩ := reclaimReason_none decided
          exact ⟨row, mem, rfl, safe, same ▸ below⟩
      · rw [List.map_append, List.append_assoc]
        refine (List.perm_append_comm_assoc _ _ _).trans ?_
        exact (List.perm_append_comm).trans (perm.append (List.Perm.refl _))
  | some reason =>
      refine done_rule stable' ⟨here, rfl⟩ ?_
      rintro rows ⟨⟨⟨here, runnable⟩, perm⟩, _⟩
      refine ⟨rows, rfl, ⟨here, runnable⟩, ?_⟩
      simp only [List.map_append, List.map_cons, List.map_nil, ← List.append_assoc]
      exact perm.append (List.Perm.refl _)

/-- Moving jobs that are all live moves all of them. -/
theorem moveLive_rule {verb : Verb} {ids : List Id} {status : JobStatus}
    {next : Unit → Txn Answer} {fact : Database → Prop} {held : List Key}
    {changes : List Change} {rows : Database} (stable : Stable (Rely exact) held fact)
    (here : fact rows) (locked : ∀ id ∈ ids, Key.job id ∈ held)
    (live
      : ∀ rows, fact rows → ∀ id ∈ ids,
          ((store.view rows changes).job? id).any (fun job => job.status.live) = true)
    (continues
      : ∀ rows,
          fact rows
          → (next ()).Ensures (ledgerSetting config exact verb began) post
              ⟨rows, held, changes ++ [Change.setJobs ids status]⟩)
    : (moveLive ids status >>= next).Ensures (ledgerSetting config exact verb began) post
        ⟨rows, held, changes⟩ := by
  simp only [moveLive, Program.bind_assoc]
  refine look_rule stable here (fun rows here => ?_)
  rw [List.filter_eq_self.mpr (live rows here)]
  refine write_rule stable here ?_ (fun _ _ => noFloor_of_other (by simp)) continues
  intro key mem
  obtain ⟨id, listed, rfl⟩ := List.mem_map.mp mem
  exact locked id listed

/-- The changes of requeueing. -/
def requeuing (ids : List Id) : List Change :=
  if ids ≠ [] then [.setJobs ids .queued] else []

@[simp] theorem view_requeuing (rows : Database) (ids : List Id)
    : store.view rows (requeuing ids)
      = { rows with jobs := rows.jobs.map (setAmong ids .queued) } := by
  cases ids with
  | nil => simp [requeuing]
  | cons id ids => simp [requeuing]

theorem requeueJobs_rule {verb : Verb} {ids : List Id} {next : Unit → Txn Answer}
    {fact : Database → Prop} {held : List Key} {changes : List Change} {rows : Database}
    (stable : Stable (Rely exact) held fact) (here : fact rows)
    (locked : ∀ id ∈ ids, Key.job id ∈ held)
    (live
      : ∀ rows, fact rows → ∀ id ∈ ids,
          ((store.view rows changes).job? id).any (fun job => job.status.live) = true)
    (continues
      : ∀ rows,
          fact rows
          → (next ()).Ensures (ledgerSetting config exact verb began) post
              ⟨rows, held, changes ++ requeuing ids⟩)
    : (requeueJobs ids >>= next).Ensures (ledgerSetting config exact verb began) post
        ⟨rows, held, changes⟩ := by
  unfold requeueJobs
  by_cases some_ : ids ≠ []
  · simp only [some_, if_true, ne_eq, not_false_eq_true]
    refine moveLive_rule stable here locked live (fun rows here => ?_)
    simpa [requeuing, some_] using continues rows here
  · simp only [some_, if_false]
    simpa [requeuing, some_] using continues rows here

/-- The changes of burying. -/
def burying (letters : List DeadLetter) : List Change :=
  if letters ≠ [] then
    .setJobs (letters.map DeadLetter.sourceId) .dead :: letters.map Change.insertDeadLetter
  else []

@[simp] theorem view_burying (rows : Database) (letters : List DeadLetter)
    : store.view rows (burying letters)
      = {
          rows with
          jobs := rows.jobs.map (setAmong (letters.map DeadLetter.sourceId) .dead),
          deadLetters := rows.deadLetters ++ letters
        } := by
  cases letters with
  | nil => simp [burying]
  | cons letter letters =>
      rw [burying, if_pos (by simp), Store.view_cons, view_letters, apply_setJobs]

theorem buryJobs_rule {verb : Verb} {letters : List DeadLetter} {next : Unit → Txn Answer}
    {fact : Database → Prop} {held : List Key} {changes : List Change} {rows : Database}
    (stable : Stable (Rely exact) held fact) (here : fact rows)
    (locked : ∀ letter ∈ letters, Key.job letter.sourceId ∈ held)
    (live
      : ∀ rows, fact rows → ∀ letter ∈ letters,
          ((store.view rows changes).job? letter.sourceId).any (fun job => job.status.live)
            = true)
    (continues
      : ∀ rows,
          fact rows
          → (next ()).Ensures (ledgerSetting config exact verb began) post
              ⟨rows, held, changes ++ burying letters⟩)
    : (buryJobs letters >>= next).Ensures (ledgerSetting config exact verb began) post
        ⟨rows, held, changes⟩ := by
  unfold buryJobs
  by_cases some_ : letters ≠ []
  · simp only [some_, if_true, ne_eq, not_false_eq_true, Program.bind_assoc]
    have sources (property : Id → Prop)
        (each : ∀ letter ∈ letters, property letter.sourceId)
        : ∀ id ∈ letters.map DeadLetter.sourceId, property id := by
      intro id listed
      obtain ⟨letter, mem, rfl⟩ := List.mem_map.mp listed
      exact each letter mem
    refine moveLive_rule stable here (sources _ locked)
      (fun rows here => sources _ (live rows here)) (fun rows here => ?_)
    refine fold_rule (fun _ => held)
      (fun done =>
        (changes ++ [Change.setJobs (letters.map DeadLetter.sourceId) .dead])
          ++ done.map Change.insertDeadLetter)
      (fun _ _ => fact) (fun _ _ => stable) ?_ here rfl (by simp) ?_
    · intro _ done letter rest rows _ here
      rw [← Program.bind_done (write (.insertDeadLetter letter))]
      refine write_rule stable here (by simp [Change.keys])
        (fun _ _ => noFloor_of_other (by simp)) (fun rows here => ?_)
      exact done_rule stable here (fun rows here => ⟨rows, by simp, here⟩)
    · intro _ rows here
      simpa [burying, some_] using continues rows here
  · simp only [some_, if_false]
    simpa [burying, some_] using continues rows here

/-- The repositories in the order in which their slots are freed. -/
def freeing (repos : List String) : List String :=
  repos.dedup.insertionSort (· ≤ ·)

theorem mem_freeing {repos : List String} {repo : String}
    : repo ∈ freeing repos ↔ repo ∈ repos := by
  rw [freeing, List.mem_insertionSort, List.mem_dedup]

theorem freeing_nodup (repos : List String) : (freeing repos).Nodup :=
  (List.perm_insertionSort _ _).nodup_iff.mpr (List.nodup_dedup repos)

theorem freeing_sorted (repos : List String) : (freeing repos).Pairwise (· < ·) := by
  refine ((List.pairwise_insertionSort (· ≤ ·) repos.dedup).and (freeing_nodup repos)).imp ?_
  rintro first second ⟨le, ne⟩
  exact lt_of_le_of_ne le ne

/-- Slots are freed in the order of the names, so every counter is locked after the others. -/
theorem freeSlots_rule {repos : List String} {next : Unit → Txn Answer}
    {fact : Database → Prop} {held : List Key} {changes : List Change} {rows : Database}
    (stable : Stable (Rely exact) held fact) (here : fact rows)
    (kinds : ∀ key ∈ held, key.kind < 2)
    (present
      : ∀ rows, fact rows → ∀ repo ∈ repos, (rows.repo? repo).isSome = true)
    (uncounted : ∀ change ∈ changes, ∀ repo, Key.repo repo ∉ change.keys)
    (consistent : ∀ rows, fact rows → Consistent rows)
    (noFloor
      : ∀ rows, fact rows → Accurate rows → ∀ repo, repos.count repo ≤ rows.openNow repo)
    (continues
      : ∀ more rows,
          fact rows
          → (next ()).Ensures
              (ledgerSetting config exact (.reclaimExpired healedAt now) began) post
              ⟨rows, more ++ held,
                changes
                  ++ (freeing repos).map (fun repo => Change.decrement repo (repos.count repo))⟩)
    : (freeSlots repos >>= next).Ensures
        (ledgerSetting config exact (.reclaimExpired healedAt now) began) post
        ⟨rows, held, changes⟩ := by
  have stableAt (done : List String)
      : Stable (Rely exact) ((done.map Key.repo).reverse ++ held) fact :=
    Stable.mono stable (fun key mem => List.mem_append_right _ mem)
  unfold freeSlots
  rw [← freeing]
  refine fold_rule (fun done => (done.map Key.repo).reverse ++ held)
    (fun done => changes ++ done.map (fun repo => Change.decrement repo (repos.count repo)))
    (fun _ _ => fact) (fun _ done => stableAt done) ?_ here (by simp) (by simp)
    (fun _ rows => continues _ rows)
  intro _ done repo rest rows split here
  have listed : repo ∈ repos := mem_freeing.mp (by simp [split])
  have sorted := freeing_sorted repos
  rw [split] at sorted
  have earlier : ∀ other ∈ done, other < repo := fun other mem =>
    (List.pairwise_append.mp sorted).2.2 other mem repo List.mem_cons_self
  have seen (rows : Database) (here : fact rows)
      : ((store.view rows
          (changes ++ done.map (fun repo => Change.decrement repo (repos.count repo)))).repo?
            repo).isSome = true :=
    view_repo_isSome _ (present rows here repo listed)
  simp only [updateRepo, update, Program.bind_assoc]
  refine look_rule (stableAt done) here (fun snapshot atSnapshot => ?_)
  refine updateFrom_rule (stableAt done) atSnapshot ?_ (fun _ _ here _ => here)
    (Stable.lock _ (stableAt done)) (by simp [Change.keys]) ?_ ?_ ?_ ?_
  · intro _ _ _
    refine Or.inr (Or.inl (fun key mem => ?_))
    rcases List.mem_append.mp mem with new | old
    · obtain ⟨other, inside, rfl⟩ := List.mem_map.mp (List.mem_reverse.mp new)
      exact Or.inr ⟨other, repo, rfl, rfl, earlier other inside⟩
    · exact Or.inl (kinds key old)
  · rintro rows here other slots same accurate
    obtain ⟨rfl, rfl⟩ := Change.decrement.inj same
    have unwritten : ∀ change ∈ changes
          ++ done.map (fun repo => Change.decrement repo (repos.count repo)),
        Key.repo repo ∉ change.keys := by
      intro change mem
      rcases List.mem_append.mp mem with old | new
      · exact uncounted change old repo
      · obtain ⟨other, inside, rfl⟩ := List.mem_map.mp new
        have other_ := earlier other inside
        simp only [Change.keys, List.mem_singleton, Key.repo.injEq]
        exact fun same => absurd (same ▸ other_) (lt_irrefl _)
    have none_ : (changes ++ done.map
          (fun repo => Change.decrement repo (repos.count repo))).filterMap Change.seeds = [] := by
      refine List.filterMap_eq_nil_iff.mpr (fun change mem => ?_)
      rcases List.mem_append.mp mem with old | new
      · refine Option.eq_none_iff_forall_ne_some.mpr (fun other seeded => ?_)
        exact uncounted change old other (Change.seeds_key seeded)
      · obtain ⟨other, _, rfl⟩ := List.mem_map.mp new
        rfl
    have unique := view_uniqueRepo_of_unseeded (consistent rows here).uniqueRepo none_
    have same := activeOf_view unwritten (present rows here repo listed)
    rw [accurate.active] at same
    intro row mem own
    rw [← Database.active_of_mem unique mem, own]
    exact same ▸ Int.ofNat_le.mpr (noFloor rows here accurate repo)
  · intro rows here
    refine done_rule (Stable.lock _ (stableAt done)) here (fun rows here => ⟨rows, ?_, here⟩)
    simp
  · intro _ rows here gone
    rw [seen rows here] at gone
    cases gone
  · intro gone
    rw [seen snapshot atSnapshot] at gone
    cases gone

theorem Stable.reclaiming {held : List Key} {orphans batch : List (Attempt × Job)}
    {fates : Fates} (lockedOrphans : ∀ row ∈ orphans, Key.attempt row.1.id ∈ held)
    (lockedBatch
      : ∀ row ∈ batch, Key.attempt row.1.id ∈ held ∧ Key.job row.2.id ∈ held)
    : Stable (Rely exact) held (Reclaiming config orphans batch fates) := by
  intro rows later moved reclaiming
  exact {
    consistent := moved.1.consistent reclaiming.consistent
    nodup := reclaiming.nodup
    orphan := fun row mem =>
      Stable.orphan (lockedOrphans row mem) moved (reclaiming.orphan row mem)
    expired := fun row mem =>
      Stable.expired (lockedBatch row mem).1 (lockedBatch row mem).2 moved
        (reclaiming.expired row mem)
    decided := reclaiming.decided
    safe := Stable.runnable (fun row mem => (lockedBatch row mem).2) moved reclaiming.safe
  }

/-- Every decided job is live until its fate is written. -/
theorem Reclaiming.live {orphans batch : List (Attempt × Job)} {fates : Fates} {rows : Database}
    (reclaiming : Reclaiming config orphans batch fates rows) {id : Id}
    (decided : id ∈ fates.requeue ++ fates.dead.map DeadLetter.sourceId)
    : ∃ job, rows.job? id = some job ∧ job.status.live = true := by
  obtain ⟨row, mem, rfl⟩ := List.mem_map.mp (reclaiming.decided.mem_iff.mp decided)
  obtain ⟨_, job, found, _, live⟩ := reclaiming.expired row mem
  exact ⟨job, found, live⟩

/-- If the counters are accurate there are no orphans, so no slot is given back twice. -/
theorem freed_le_openNow {rows : Database} {closeRow : Attempt → Attempt}
    (accurate : Accurate rows) (repo : String)
    : Ledger.freed rows closeRow repo ≤ rows.openNow repo := by
  refine List.countP_mono_left (fun attempt mem freed => ?_)
  simp only [Bool.and_eq_true, decide_eq_true_eq, Option.any_eq_true] at freed
  obtain ⟨⟨isOpen, _⟩, job, found, own⟩ := freed
  have live := accurate.unorphaned attempt mem job isOpen found
  simp [Database.liveOn, isOpen, found, own, live]

/-- The rows after reclaiming. -/
theorem view_reclaim (rows : Database) (orphans batch : List (Attempt × Job)) (fates : Fates)
    : store.view rows
          ([healing orphans healedAt, reclaiming batch now] ++ requeuing fates.requeue
            ++ burying fates.dead
            ++ (freeing (reposOf orphans ++ reposOf batch)).map
                (fun repo => Change.decrement repo ((reposOf orphans ++ reposOf batch).count repo)))
      = {
          rows with
          attempts := rows.attempts.map (reclaimAttempt orphans batch healedAt now),
          jobs := rows.jobs.map (reclaimJob fates),
          repoConcurrency :=
            decremented (fun repo => (reposOf orphans ++ reposOf batch).count repo)
              (freeing (reposOf orphans ++ reposOf batch)) rows.repoConcurrency,
          deadLetters := rows.deadLetters ++ fates.dead
        } := by
  rw [Store.view_append, Store.view_append, Store.view_append, view_burying, view_requeuing]
  simp only [healing, reclaiming, Store.view_cons, Store.view_nil, apply_closeAttempts]
  rw [view_decrements _ (fun repo => (reposOf orphans ++ reposOf batch).count repo)]
  simp only [List.map_map]
  rfl

/-- `reclaim_expired` ends in one commit that settles everything that it has locked. -/
theorem reclaimExpired_keeps (healedAt now : Time)
    : Keeps config exact (.reclaimExpired healedAt now) := by
  intro began holds
  simp only [code, reclaimExpired, Program.bind_assoc]
  refine closeOrphans_rule config.scan_perm (fun _ => Stable.consistent) (fun _ here => here) holds
    (fun orphans first rows here nodup orphan kinds => ?_)
  refine closeExpired_rule (fun row mem => (orphan row mem).2)
    ⟨here, fun row mem => (orphan row mem).1⟩ nodup
    (fun batch second rows healed nodup expired kinds' => ?_)
  have lockedOrphans : ∀ row ∈ orphans, Key.attempt row.1.id ∈ second ++ first :=
    fun row mem => List.mem_append_right second (orphan row mem).2
  have lockedBatch : ∀ row ∈ batch,
      Key.attempt row.1.id ∈ second ++ first ∧ Key.job row.2.id ∈ second ++ first :=
    fun row mem =>
      ⟨List.mem_append_left first (expired row mem).2.1,
        List.mem_append_left first (expired row mem).2.2⟩
  have below : ∀ key ∈ second ++ first, key.kind < 2 := by
    intro key mem
    rcases List.mem_append.mp mem with late | early
    · have := kinds' key late
      omega
    · have := kinds key early
      omega
  have stableBatch : Stable (Rely exact) (second ++ first) (fun rows =>
        Healed orphans rows ∧ ∀ row, row ∈ batch → Expired row rows) :=
    (Stable.healed lockedOrphans).and (Stable.all fun row => Stable.given fun mem =>
      Stable.expired (lockedBatch row mem).1 (lockedBatch row mem).2)
  refine decideFates_rule stableBatch ⟨healed, fun row mem => (expired row mem).1⟩
    (fun row mem => (lockedBatch row mem).2) ?_ (fun fates rows here decided safe => ?_)
  · intro rows id
    rw [healing, reclaiming, Store.view_cons, Store.view_cons, Store.view_nil,
      apply_closeAttempts, apply_closeAttempts, attemptCount_close, attemptCount_close]
  have stable : Stable (Rely exact) (second ++ first) (Reclaiming config orphans batch fates) :=
    Stable.reclaiming lockedOrphans lockedBatch
  have lockedFates {id : Id} (decided_ : id ∈ fates.requeue ++ fates.dead.map DeadLetter.sourceId)
      : Key.job id ∈ second ++ first := by
    obtain ⟨row, mem, rfl⟩ := List.mem_map.mp (decided.mem_iff.mp decided_)
    exact (lockedBatch row mem).2
  have inDead {letter : DeadLetter} (listed : letter ∈ fates.dead)
      : letter.sourceId ∈ fates.requeue ++ fates.dead.map DeadLetter.sourceId :=
    List.mem_append_right _ (List.mem_map_of_mem listed)
  refine requeueJobs_rule stable
    ⟨here.1.1, nodup, here.1.2, here.2, decided, safe⟩
    (fun id listed => lockedFates (List.mem_append_left _ listed)) ?_ (fun rows here => ?_)
  · intro rows here id listed
    obtain ⟨job, found, live⟩ := here.live (List.mem_append_left _ listed)
    simp [healing, reclaiming, Store.view_cons, found, live]
  refine buryJobs_rule stable here (fun letter listed => lockedFates (inDead listed)) ?_
    (fun rows here => ?_)
  · intro rows here letter listed
    obtain ⟨job, found, live⟩ := here.live (inDead listed)
    have other : letter.sourceId ∉ fates.requeue := fun requeued =>
      (List.nodup_append.mp here.fates_nodup).2.2 _ requeued _ (List.mem_map_of_mem listed) rfl
    have same : setAmong fates.requeue .queued job = job :=
      if_neg (by rw [show job.id = letter.sourceId from lookup_key found]; exact other)
    rw [Store.view_append, view_requeuing, job?_setAmong]
    simp [healing, reclaiming, Store.view_cons, found, same, live]
  refine freeSlots_rule stable here below (fun rows here repo named => here.present named) ?_
    (fun rows here => here.consistent) ?_ (fun more rows here => ?_)
  · intro change mem repo
    simp only [List.mem_append, List.mem_cons, List.not_mem_nil, or_false, requeuing, burying]
      at mem
    rcases mem with ((rfl | rfl) | requeued) | buried
    · simp [healing, Change.keys]
    · simp [reclaiming, Change.keys]
    · split at requeued
      · rw [List.mem_singleton.mp requeued]
        simp [Change.keys]
      · cases requeued
    · split at buried
      · rcases List.mem_cons.mp buried with rfl | letter
        · simp [Change.keys]
        · obtain ⟨letter, _, rfl⟩ := List.mem_map.mp letter
          simp [Change.keys]
      · cases buried
  · intro rows here accurate repo
    rw [← here.freed healedAt now]
    exact freed_le_openNow accurate repo
  · refine done_rule (Stable.mono stable (fun key mem => List.mem_append_right more mem))
      here (fun rows here => ⟨?_, by simp [Verb.fences]⟩)
    rw [view_reclaim]
    refine .settle (settles_reclaim here (decremented_unique here.consistent.uniqueRepo)
      (fun _ _ => rfl) ?_)
    intro later table repo
    have counted := activeOf_decremented rows (reposOf orphans ++ reposOf batch).count
      (freeing_nodup (reposOf orphans ++ reposOf batch))
      (fun repo named => here.present (mem_freeing.mp named)) repo
    rw [here.freed, Database.activeOf, Database.repo?, table]
    refine counted.trans ?_
    simp only [mem_freeing, List.count_eq_zero]
    by_cases named : repo ∈ reposOf orphans ++ reposOf batch
    · rw [if_pos named, if_neg (not_not_intro named)]
    · rw [if_neg named, if_pos named]

end Steps

end Ledger
