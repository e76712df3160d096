import Myndaix.Ledger.LeasingContracts

/-! The contracts of cancellation and of the read that notices it. Cancelling is the one verb
that can leave an open attempt on a dead job: a
lease that commits between its first two statements is not seen by the first.
-/

namespace Ledger

open Interaction Relational Transactions

variable {config : Config} {exact : Prop} {began : Database}

variable {rows : Database}

/-- Cancelling a job without closing an attempt: nobody gets a slot back. -/
theorem settles_cancelAlone {jobId : Id} {now : Time} {job : Job} (holds : Consistent rows)
    (found : rows.job? jobId = some job) (running : job.status.terminal = false)
    (idle : exact → rows.openCount jobId = 0)
    : Settles config exact (.cancel jobId now) rows (store.view rows [.setJobs [jobId] .dead])
        id (setAmong [jobId] .dead) [] [] := by
  have identity : job.id = jobId := lookup_key found
  have isJob {row : Job} (inside : row ∈ rows.jobs) (same : row.id = jobId) : row = job := by
    have here := lookup_of_mem holds.uniqueJob inside
    rw [same] at here
    exact Option.some.inj (here.symm.trans found)
  have other {row : Job} (different : row.id ≠ jobId) : setAmong [jobId] .dead row = row :=
    if_neg (by simpa using different)
  have killed {row : Job} (same : row.id = jobId)
      : (setAmong [jobId] .dead row).status = .dead := by
    simp [setAmong, same]
  have none_ (repo : String) : freed rows id repo = 0 := by
    simp [freed]
  exact {
    inboundEvents := by simp
    attempts := by simp
    jobs := by simp
    outbound := by simp
    deadLetters := by simp
    uniqueRepo := by simpa using holds.uniqueRepo
    uniqueOutbound := by simpa using holds.uniqueOutbound
    closeKept := fun attempt => ⟨rfl, rfl⟩
    moveKept := setAmong_kept [jobId] .dead
    closes := fun _ _ _ => rfl
    moves := by
      intro row inside
      by_cases same : row.id = jobId
      · obtain rfl := isJob inside same
        exact Or.inr ⟨running, by rw [killed same]; rfl⟩
      · exact Or.inl (other same)
    settled := by
      intro attempt mem row foundRow isOpen _
      by_cases same : row.id = jobId
      · refine Or.inr ⟨killed same, fun alone => ?_⟩
        have none_ := idle alone
        have own : attempt.jobId = jobId := (lookup_key foundRow).symm.trans same
        simp only [Database.openCount, List.countP_eq_zero] at none_
        exact none_ attempt mem (by simp [own, isOpen])
      · exact Or.inl (other same)
    released := fun _ _ _ _ isOpen closed => absurd isOpen closed
    requeued := by
      intro row _ queued
      by_cases same : row.id = jobId
      · rw [killed same] at queued
        cases queued
      · exact Or.inl (other same)
    replied := by
      intro row _
      rw [if_neg]
      · rfl
      · rintro ⟨unfinished, finished, _⟩
        by_cases same : row.id = jobId
        · rw [killed same] at finished
          cases finished
        · rw [other same] at finished
          exact unfinished finished
    replyRows := by simp
    buried := by simp [Verb.buries]
    letterRows := by simp
    accounted := fun repo => by
      rw [none_, if_pos rfl]
      simp [Database.activeOf, Database.repo?]
  }

/-- The row of a cancelled attempt's job: dead unless it was terminal already. -/
def cancelRow (moved : Bool) (jobId : Id) : Job → Job :=
  if moved = true then setAmong [jobId] .dead else id

/-- Cancelling a job with its open attempt. -/
theorem settles_cancel (config : Config) (exact : Prop) (now : Time) (moved : Bool)
    {attempt : Attempt} {job : Job} (holds : Consistent rows)
    (found : rows.attempt? attempt.id = some attempt) (isOpen : attempt.status = .open_)
    (foundJob : rows.job? attempt.jobId = some job) (running : job.status.terminal = !moved)
    : Settles config exact (.cancel job.id now) rows
        (store.view rows
          ([Change.closeAttempts [attempt.id] .failed now none (some .terminal)]
            ++ (if moved = true then [Change.setJobs [job.id] .dead] else [])
            ++ job.repoId.toList.map (fun repo => Change.decrement repo 1)))
        (closeAmong [attempt.id] .failed now none (some .terminal)) (cancelRow moved job.id)
        [] [] := by
  have status : (cancelRow moved job.id job).status
      = if moved = true then .dead else job.status := by
    cases moved <;> simp [cancelRow, setAmong]
  refine settles_single holds found foundJob
    (closing_among _ _ _ _ (List.nodup_singleton _) (openIn_one found isOpen)) ?_ ?_ ?_ ?_ ?_
    (OwnRows.none rfl ?_) (by simpa using holds.uniqueOutbound)
    (fun _ _ _ accounted => accounted) ?_
  · intro row
    unfold cancelRow
    split
    · exact setAmong_kept _ _ row
    · rfl
  · intro row other
    unfold cancelRow
    split
    · exact if_neg (by simpa using other)
    · rfl
  · rw [status]
    cases moved with
    | true => rfl
    | false =>
        by_contra live
        rw [if_neg (by simp), Bool.not_eq_false] at live
        rw [JobStatus.terminal_of_live live] at running
        cases running
  · cases moved with
    | true => exact Or.inr running
    | false => exact Or.inl rfl
  · cases moved with
    | true => simp [status]
    | false => exact fun _ => Or.inl rfl
  · cases moved with
    | true => simp [status]
    | false => simp [status]
  · cases moved <;> simp [cancelRow]

/-- Consistent tables hold at most one open attempt of a job. -/
theorem Consistent.openAttempts (holds : Consistent began) (jobId : Id)
    : began.attempts.filter (fun attempt => attempt.jobId = jobId && attempt.status = .open_) = []
      ∨ ∃ attempt ∈ began.attempts,
          attempt.jobId = jobId ∧ attempt.status = .open_
          ∧ began.attempts.filter
              (fun attempt => attempt.jobId = jobId && attempt.status = .open_) = [attempt] := by
  have atMost := holds.oneOpen jobId
  rw [Database.openCount, List.countP_eq_length_filter] at atMost
  cases found : began.attempts.filter
      (fun attempt => attempt.jobId = jobId && attempt.status = .open_) with
  | nil => exact Or.inl rfl
  | cons attempt rest =>
      rw [found, List.length_cons] at atMost
      obtain rfl : rest = [] := List.length_eq_zero_iff.mp (by omega)
      have mem := found.symm ▸ List.mem_singleton_self attempt
      obtain ⟨inside, own⟩ := List.mem_filter.mp mem
      simp only [Bool.and_eq_true, decide_eq_true_eq] at own
      exact Or.inr ⟨attempt, inside, own.1, own.2, rfl⟩

/-- After a first statement that closed nothing, cancelling ends with the job alone. -/
theorem cancel_alone (jobId : Id) (now : Time) {held : List Key}
    (held_ : ∀ key ∈ held, key.kind < 1)
    (here : Consistent rows ∧ (exact → rows = began) ∧ (exact → began.openCount jobId = 0))
    : (update (.job jobId)
          (fun _ latest => (latest.job? jobId).any (fun job => !job.status.terminal))
          (.setJobs [jobId] .dead) >>= fun _ => (Program.done .unit : Txn Reply)).Ensures
        (ledgerSetting config exact (.cancel jobId now) began)
        (fun _ => Ends config exact (.cancel jobId now)) ⟨rows, held, []⟩ := by
  have stable (held : List Key) : Stable (Rely exact) held (fun rows =>
        Consistent rows ∧ (exact → rows = began) ∧ (exact → began.openCount jobId = 0)) :=
    Stable.consistent.and ((Stable.alone began).and (Stable.const _))
  have quiet {rows : Database} {held : List Key}
      (here : Consistent rows ∧ (exact → rows = began) ∧ (exact → began.openCount jobId = 0))
      : (Program.done .unit : Txn Reply).Ensures
          (ledgerSetting config exact (.cancel jobId now) began)
          (fun _ => Ends config exact (.cancel jobId now)) ⟨rows, held, []⟩ :=
    done_rule (stable held) here (fun _ _ => Ends.quiet rfl)
  have running (held : List Key) (locked : Key.job jobId ∈ held)
      : Stable (Rely exact) held (fun rows =>
          (Consistent rows ∧ (exact → rows = began) ∧ (exact → began.openCount jobId = 0))
          ∧ ∃ job, rows.job? jobId = some job ∧ job.status.terminal = false) :=
    (stable held).and (Stable.exists fun _ => (Stable.job locked).and (Stable.const _))
  simp only [update, Program.bind_assoc]
  refine look_rule (stable held) here (fun snapshot here => ?_)
  refine updateFrom_rule (stable held) here
    (fun _ _ _ => Or.inr (Or.inl (fun key mem => Or.inl (held_ key mem)))) ?_
    (running _ List.mem_cons_self) (by simp [Change.keys])
    (fun _ _ => noFloor_of_other (by simp)) ?_
    (fun _ _ here _ => quiet here) (fun _ _ here => quiet here)
  · intro _ rows here running
    obtain ⟨job, found, running⟩ := (Option.any_eq_true _ _).mp running
    exact ⟨here, job, found, by simpa using running⟩
  · intro rows here
    refine done_rule (running _ List.mem_cons_self) here ?_
    rintro rows ⟨⟨consistent, alone, idle⟩, job, found, running⟩
    refine ⟨.settle (settles_cancelAlone consistent found running ?_), by simp [Verb.fences]⟩
    exact fun exactly => alone exactly ▸ idle exactly

/-- After a first statement that closed the job's attempt, cancelling ends the job unless it is
over, and gives the slot back.
-/
theorem cancel_closed (now : Time) {attempt : Attempt} {held : List Key}
    (held_ : ∀ key ∈ held, key.kind < 1) (locked : Key.attempt attempt.id ∈ held)
    (isOpen : attempt.status = .open_)
    (here : Consistent rows ∧ rows.attempt? attempt.id = some attempt)
    : (update (.job attempt.jobId)
          (fun _ latest => (latest.job? attempt.jobId).any (fun job => !job.status.terminal))
          (.setJobs [attempt.jobId] .dead) >>= fun _ => look >>= fun rows =>
        freeSlot rows ((rows.job? attempt.jobId).bind Job.repoId) >>= fun _ =>
        (Program.done .unit : Txn Reply)).Ensures
        (ledgerSetting config exact (.cancel attempt.jobId now) began)
        (fun _ => Ends config exact (.cancel attempt.jobId now))
        ⟨rows, held, [.closeAttempts [attempt.id] .failed now none (some .terminal)]⟩ := by
  have owning (held : List Key) (locked : Key.attempt attempt.id ∈ held)
      : Stable (Rely exact) held
          (fun rows => Consistent rows ∧ rows.attempt? attempt.id = some attempt) :=
    Stable.consistent.and (Stable.attempt locked)
  -- The slot comes last, whether the job's row was moved or not.
  have tail (moved : Bool) (job : Job) (running : job.status.terminal = !moved)
      (held : List Key) (locked : Key.attempt attempt.id ∈ held)
      (kinds : ∀ key ∈ held, key.kind < 2) {rows : Database}
      (stable : Stable (Rely exact) held (fun rows => rows.job? attempt.jobId = some job))
      (here
        : (Consistent rows ∧ rows.attempt? attempt.id = some attempt)
          ∧ rows.job? attempt.jobId = some job)
      : (look >>= fun rows =>
          freeSlot rows ((rows.job? attempt.jobId).bind Job.repoId) >>= fun _ =>
          (Program.done .unit : Txn Reply)).Ensures
          (ledgerSetting config exact (.cancel attempt.jobId now) began)
          (fun _ => Ends config exact (.cancel attempt.jobId now))
          ⟨rows, held,
            [Change.closeAttempts [attempt.id] .failed now none (some .terminal)]
              ++ if moved = true then [Change.setJobs [attempt.jobId] .dead] else []⟩ := by
    have stable := (owning held locked).and stable
    have present (repo : String) (own : job.repoId = some repo) (rows : Database)
        (here
          : (Consistent rows ∧ rows.attempt? attempt.id = some attempt)
            ∧ rows.job? attempt.jobId = some job)
        : (rows.repo? repo).isSome = true :=
      here.1.1.counted attempt (lookup_mem here.1.2) job repo isOpen here.2 own
    refine look_rule stable here (fun rows here => ?_)
    have seen : ((store.view rows
            ([Change.closeAttempts [attempt.id] .failed now none (some .terminal)]
              ++ if moved = true then [Change.setJobs [attempt.jobId] .dead] else [])).job?
            attempt.jobId).bind Job.repoId
        = job.repoId := by
      cases moved with
      | false => simp [here.2]
      | true =>
          simp only [if_true, List.cons_append, List.nil_append, Store.view_cons, Store.view_nil]
          rw [apply_setJobs, job?_setAmong]
          simp [here.2]
    rw [seen]
    refine freeSlot_rule stable here
      (fun repo own => view_repo_isSome _ (present repo own rows here)) present
      (fun repo _ _ => Or.inr (Or.inl (fun key mem => Or.inl (kinds key mem))))
      (fun _ here => here.1.1) (by cases moved <;> simp [Change.seeds]) ?_ ?_
    · intro repo own rows here accurate
      have live := accurate.unorphaned attempt (lookup_mem here.1.2) job isOpen here.2
      rw [activeOf_view ?_ (present repo own rows here), accurate.active repo]
      · exact Int.ofNat_le.mpr (openNow_pos here.1.2 isOpen here.2 live own)
      · cases moved <;> simp [Change.keys]
    · intro rows here
      refine done_rule (Stable.mono stable (fun key mem => List.mem_append_right _ mem))
        here (fun rows here => ⟨?_, by simp [Verb.fences]⟩)
      have settles := settles_cancel config exact now moved here.1.1 here.1.2 isOpen here.2 running
      rw [show job.id = attempt.jobId from lookup_key here.2] at settles
      exact .settle settles
  have foundJob (rows : Database) (here : Consistent rows ∧ rows.attempt? attempt.id = some attempt)
      : ∃ job, rows.job? attempt.jobId = some job :=
    Option.isSome_iff_exists.mp (here.1.attemptJob attempt (lookup_mem here.2))
  have seen (rows : Database)
      : (store.view rows [.closeAttempts [attempt.id] .failed now none (some .terminal)]).job?
          attempt.jobId
        = rows.job? attempt.jobId := by
    simp
  -- A terminal job keeps its row, locked or not.
  have settled {held : List Key} (locked : Key.attempt attempt.id ∈ held)
      (kinds : ∀ key ∈ held, key.kind < 2) {rows : Database}
      (here : Consistent rows ∧ rows.attempt? attempt.id = some attempt)
      (terminal
        : ∀ job, rows.job? attempt.jobId = some job → job.status.terminal = true)
      : (look >>= fun rows =>
          freeSlot rows ((rows.job? attempt.jobId).bind Job.repoId) >>= fun _ =>
          (Program.done .unit : Txn Reply)).Ensures
          (ledgerSetting config exact (.cancel attempt.jobId now) began)
          (fun _ => Ends config exact (.cancel attempt.jobId now))
          ⟨rows, held, [.closeAttempts [attempt.id] .failed now none (some .terminal)]⟩ := by
    obtain ⟨job, found⟩ := foundJob rows here
    simpa using tail false job (terminal job found) held locked kinds
      (Stable.terminalJob (terminal job found)) ⟨here, found⟩
  have below (held' : List Key) (within : ∀ key ∈ held', key.kind < 1)
      : ∀ key ∈ held', key.kind < 2 := fun key mem => by
    have := within key mem
    omega
  simp only [update, Program.bind_assoc]
  refine look_rule (owning held locked) here (fun snapshot atSnapshot => ?_)
  -- The job's row as the statement's snapshot has it.
  obtain ⟨before, foundBefore⟩ := foundJob snapshot atSnapshot
  have stable (held : List Key) (locked : Key.attempt attempt.id ∈ held)
      : Stable (Rely exact) held (fun rows =>
          (Consistent rows ∧ rows.attempt? attempt.id = some attempt)
          ∧ ∃ next, rows.job? attempt.jobId = some next ∧ before.Continues next) :=
    (owning held locked).and Stable.jobRow
  have running (held : List Key) (locked : Key.attempt attempt.id ∈ held)
      (lockedJob : Key.job attempt.jobId ∈ held)
      : Stable (Rely exact) held (fun rows =>
          (Consistent rows ∧ rows.attempt? attempt.id = some attempt)
          ∧ ∃ job, rows.job? attempt.jobId = some job ∧ job.status.terminal = false) :=
    (owning held locked).and (Stable.exists fun _ => (Stable.job lockedJob).and (Stable.const _))
  refine updateFrom_rule (stable held locked) ⟨atSnapshot, before, foundBefore, .refl before⟩
    (fun _ _ _ => Or.inr (Or.inl (fun key mem => Or.inl (held_ key mem)))) ?_
    (running _ (by simp [locked]) (by simp)) (by simp [Change.keys])
    (fun _ _ => noFloor_of_other (by simp)) ?_ ?_ ?_
  · rintro _ rows ⟨here, _⟩ running
    rw [seen] at running
    obtain ⟨job, found, running⟩ := (Option.any_eq_true _ _).mp running
    exact ⟨here, job, found, by simpa using running⟩
  · rintro rows ⟨here, job, found, running⟩
    refine tail true job running _ (by simp [locked]) ?_ (Stable.job (by simp)) ⟨here, found⟩
    simpa [Key.kind] using below held held_
  · rintro _ rows ⟨here, _⟩ gone
    refine settled (by simp [locked]) (by simpa [Key.kind] using below held held_) here ?_
    intro job found
    rw [seen, found] at gone
    simpa using gone
  · rintro gone rows ⟨here, next, foundNext, continues⟩
    refine settled locked (below held held_) here ?_
    intro job found
    rw [seen, foundBefore] at gone
    have terminal : before.status.terminal = true := by simpa using gone
    obtain rfl := Option.some.inj (found.symm.trans foundNext)
    rw [continues.final terminal]
    exact terminal

/-- `cancel` ends the job, closes the open attempt that its first statement sees and gives that
attempt's slot back.
-/
theorem cancel_keeps (jobId : Id) (now : Time) : Keeps config exact (.cancel jobId now) := by
  intro began holds
  simp only [code, cancel, closeOpenAttempts, Program.bind_assoc]
  have start (held : List Key) : Stable (Rely exact) held (fun rows =>
        Consistent rows ∧ (exact → rows = began)) :=
    Stable.consistent.and (Stable.alone began)
  refine look_rule (start []) ⟨holds, fun _ => rfl⟩ (fun snapshot here => ?_)
  rw [Store.view_nil]
  rcases here.1.openAttempts jobId with none_ | ⟨attempt, mem, own, isOpen, only⟩
  · rw [none_]
    refine cancel_alone jobId now (by simp) ⟨here.1, here.2, fun alone => ?_⟩
    rw [← here.2 alone, Database.openCount, List.countP_eq_length_filter]
    exact congrArg List.length none_
  · subst own
    have found : snapshot.attempt? attempt.id = some attempt :=
      lookup_of_mem here.1.uniqueAttempt mem
    rw [only]
    simp only [Program.fold, Program.bind_assoc]
    have stable (held : List Key) : Stable (Rely exact) held (fun rows =>
          (Consistent rows ∧ (exact → rows = began))
          ∧ (exact → OpenIn began attempt.id)
          ∧ ∃ next, rows.attempt? attempt.id = some next ∧ attempt.Continues next) :=
      (start held).and ((Stable.const _).and Stable.attemptRow)
    have stableOpen : Stable (Rely exact) [.attempt attempt.id] (fun rows =>
          Consistent rows
          ∧ ∃ row,
              rows.attempt? attempt.id = some row
              ∧ row.status = .open_ ∧ row.jobId = attempt.jobId) :=
      Stable.consistent.and (Stable.exists fun _ =>
        (Stable.attempt List.mem_cons_self).and (Stable.const _))
    refine updateFrom_rule (stable []) ⟨here, fun alone => ?_, attempt, found, .refl attempt⟩
      (fun _ _ _ => Or.inr (Or.inl (by simp))) ?_
      stableOpen (by simp [Change.keys]) (fun _ _ => noFloor_of_other (by simp)) ?_ ?_ ?_
    · rw [← here.2 alone]
      exact ⟨attempt, found, isOpen⟩
    · rintro _ rows ⟨⟨consistent, _⟩, _, next, foundNext, continues⟩ still
      obtain ⟨row, foundRow, isOpen⟩ := (Option.any_eq_true _ _).mp still
      obtain rfl := Option.some.inj (foundNext.symm.trans foundRow)
      exact ⟨consistent, next, foundNext, by simpa using isOpen, continues.sameJob⟩
    · rintro rows ⟨consistent, row, foundRow, isOpenRow, sameJob⟩
      have identity : row.id = attempt.id := lookup_key foundRow
      rw [← identity] at foundRow ⊢
      rw [← sameJob]
      simpa using cancel_closed now (by simp [Key.kind]) (by simp) isOpenRow ⟨consistent, foundRow⟩
    · rintro _ rows ⟨⟨consistent, same⟩, openIn, next, foundNext, continues⟩ gone
      refine cancel_alone attempt.jobId now (by simp [Key.kind]) ⟨consistent, same, fun alone => ?_⟩
      obtain ⟨row, foundRow, isOpen⟩ := openIn alone
      rw [Store.view_nil, same alone, foundRow] at gone
      simp [isOpen] at gone
    · intro gone
      rw [found] at gone
      simp [isOpen] at gone

/-- `get_attempt_job` locks what it reads and changes nothing. -/
theorem getAttemptJob_keeps (attemptId : Id) : Keeps config exact (.getAttemptJob attemptId) := by
  intro began holds
  have quiet {rows : Database} {locks : List Key} {answer : Reply} (here : Consistent rows)
      : (Program.done answer : Txn Reply).Ensures
          (ledgerSetting config exact (.getAttemptJob attemptId) began)
          (fun _ => Ends config exact (.getAttemptJob attemptId)) ⟨rows, locks, []⟩ :=
    done_rule Stable.consistent here (fun _ _ => Ends.quiet rfl)
  simp only [code, getAttemptJob, getAttemptJob.lockLive, Program.bind_assoc]
  refine look_rule Stable.consistent holds (fun snapshot here => ?_)
  split
  case isFalse => exact quiet here
  simp only [Program.bind_assoc]
  refine lock_rule Stable.consistent here (fun _ _ => Or.inr (Or.inl (by simp)))
    (fun rows here => ?_)
  refine look_rule Stable.consistent here (fun rows here => ?_)
  split
  case h_1 => exact quiet here
  split
  case isFalse => exact quiet here
  simp only [Program.bind_assoc]
  refine look_rule Stable.consistent here (fun rows here => ?_)
  split
  case isFalse => exact quiet here
  simp only [Program.bind_assoc]
  refine lock_rule Stable.consistent here
    (fun _ _ => Or.inr (Or.inl (by simp [Before, Key.kind]))) (fun rows here => ?_)
  exact look_rule Stable.consistent here (fun rows here => quiet here)

end Ledger
