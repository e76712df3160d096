import Myndaix.Ledger.LeasingContracts

/-! The contracts of admission: an event is recorded once, and a job is queued or rejected under
its parent's lock.
-/

namespace Ledger

open Interaction Relational Transactions

variable {config : Config} {exact : Prop} {began : Database}

/-- `ingest_inbound` records a new event, or answers with the one that has its key. -/
theorem ingestInbound_keeps (id : Id) (envelope : TransportEnvelope) (body : String)
    : Keeps config exact (.ingestInbound id envelope body) := by
  intro began holds
  simp only [code, ingestInbound, Program.bind_assoc]
  refine insert_rule Stable.consistent holds (fun _ _ _ _ => Or.inr (Or.inl (by simp)))
    (by simp [Change.keys]) (by simp) (fun rows here absent => ?_) (fun rows _ here _ _ => ?_)
  · have stable : Stable (Rely exact)
        ([Key.inboundEntry id, .dedupeEntry envelope.dedupeKey] ++ []) (fun rows =>
          (Key.inboundEntry id).present rows = false
          ∧ (Key.dedupeEntry envelope.dedupeKey).present rows = false) :=
      (Stable.absent (by simp)).and (Stable.absent (by simp))
    refine done_rule stable ⟨absent _ (by simp), absent _ (by simp)⟩ ?_
    rintro rows ⟨fresh, deduped⟩
    have receives : Receives rows
        (store.view rows [.insertInbound ⟨id, envelope, utf8Safe body⟩])
        ⟨id, envelope, utf8Safe body⟩ :=
      ⟨rfl, by simpa [Key.present] using fresh, by simpa [Key.present] using deduped⟩
    exact ⟨.ingest receives, by simp [Verb.fences]⟩
  · simp only [Bool.false_eq_true, if_false, Program.bind_assoc]
    refine look_rule Stable.consistent here (fun rows here => ?_)
    split
    · simp only [Program.bind_assoc]
      refine lock_rule Stable.consistent here (fun _ _ => Or.inr (Or.inl (by simp)))
        (fun rows here => ?_)
      exact done_rule Stable.consistent here (fun _ _ => Ends.quiet rfl)
    · rw [raise_bind]
      exact raise_rule Stable.consistent here (by simp [Verb.fences])

/-- Where a new job hangs in the forest, and under which lock. -/
structure Lineage (held : List Key) (rows : Database) (job : Job) : Prop where
  root : job.parentId = none → job.depth = 0 ∧ job.rootId = job.id ∧ job.status = .queued
  child
    : ∀ parentId,
        job.parentId = some parentId
        → Key.job parentId ∈ held
          ∧ ∃ parent,
              rows.job? parentId = some parent
              ∧ job.depth = parent.depth + 1
              ∧ job.rootId = parent.rootId
              ∧ (job.status = .queued
                → parent.status.terminal = false
                  ∧ job.depth ≤ maxDepth
                  ∧ rows.childCount parentId < maxChildren)

theorem Stable.lineage {held : List Key} {job : Job}
    : Stable (Rely exact) held (fun rows => Lineage held rows job) := by
  intro rows later moved lineage
  refine ⟨lineage.root, fun parentId child => ?_⟩
  obtain ⟨locked, parent, found, depth, root, admitted⟩ := lineage.child parentId child
  refine ⟨locked, parent, Stable.job locked moved found, depth, root, fun queued => ?_⟩
  obtain ⟨running, bounded, room⟩ := admitted queued
  exact ⟨running, bounded,
    Nat.lt_of_le_of_lt (Stable.childCount locked moved (Nat.le_refl _)) room⟩

theorem Lineage.wider {held more : List Key} {rows : Database} {job : Job}
    (lineage : Lineage held rows job) (within : ∀ key ∈ held, key ∈ more)
    : Lineage more rows job := by
  refine ⟨lineage.root, fun parentId child => ?_⟩
  obtain ⟨locked, parent⟩ := lineage.child parentId child
  exact ⟨within _ locked, parent⟩

/-- The keys of a job's row, absent. -/
theorem entries_absent {rows : Database} {job : Job}
    (absent : ∀ key, key ∈ job.entries → key.present rows = false)
    : rows.job? job.id = none
      ∧ ∀ event, job.inboundEventId = some event
        → ∀ other ∈ rows.jobs, other.inboundEventId ≠ some event := by
  constructor
  · simpa [Key.present] using absent (.jobEntry job.id) (by simp [Job.entries])
  · intro event own
    simpa [Key.present] using absent (.jobOfInbound event) (by simp [Job.entries, own])

/-- An inserted job and its letters are one admission. -/
theorem admits_inserted {held : List Key} {rows : Database} {job : Job}
    {letters : List DeadLetter} (lineage : Lineage held rows job)
    (absent : ∀ key, key ∈ job.entries → key.present rows = false)
    (resolves
      : ∀ event, job.inboundEventId = some event → (rows.inbound? event).isSome = true)
    (status
      : (job.status = .queued ∧ letters = [])
        ∨ (job.status = .dead ∧ ∃ reason, letters = [⟨job.id, reason⟩]))
    : Admits held rows
        { rows with jobs := rows.jobs ++ [job], deadLetters := rows.deadLetters ++ letters }
        job letters where
  inboundEvents := rfl
  attempts := rfl
  jobs := rfl
  repoConcurrency := rfl
  outbound := rfl
  deadLetters := rfl
  fresh := (entries_absent absent).1
  status := status
  inbound := fun event own => ⟨resolves event own, (entries_absent absent).2 event own⟩
  root := lineage.root
  child := lineage.child

theorem view_inserted (rows : Database) (job : Job) (letters : List DeadLetter)
    : store.view rows ([Change.insertJob job] ++ letters.map Change.insertDeadLetter)
      = { rows with jobs := rows.jobs ++ [job], deadLetters := rows.deadLetters ++ letters } := by
  rw [Store.view_append, view_letters]
  rfl

/-- What an admission knows of the committed rows before it inserts. -/
def Admitting (held : List Key) (job : Job) (rows : Database) : Prop :=
  Consistent rows ∧ Lineage held rows job

/-- What it knows once its row's keys are taken. -/
def Inserting (held : List Key) (job : Job) (rows : Database) : Prop :=
  Admitting held job rows ∧ ∀ key, key ∈ job.entries → key.present rows = false

theorem Stable.inserting {held : List Key} {job : Job}
    : Stable (Rely exact) (job.entries ++ held) (Inserting held job) :=
  (Stable.mono (Stable.consistent.and Stable.lineage)
      (fun _ mem => List.mem_append_right _ mem)).and
    (Stable.all fun _ => Stable.given fun mem =>
      Stable.absent (List.mem_append_left _ mem))

/-- The key of an inbound event is checked against committed rows. -/
theorem requireInbound_rule {verb : Verb} {Answer : Type} {next : Unit → Txn Answer}
    {post : Answer → Place Database Key Change → Prop} {fact : Database → Prop}
    {held : List Key} {rows : Database} {job : Job} {inbound : Option Id}
    (stable : Stable (Rely exact) held fact) (here : fact rows) (unfenced : verb.fences = none)
    (continues
      : ∀ rows,
          (fact rows ∧ ∀ event, inbound = some event → (rows.inbound? event).isSome = true)
          → (next ()).Ensures (ledgerSetting config exact verb began) post
              ⟨rows, held, [.insertJob job]⟩)
    : (requireInbound inbound >>= next).Ensures (ledgerSetting config exact verb began) post
        ⟨rows, held, [.insertJob job]⟩ := by
  cases inbound with
  | none => exact continues rows ⟨here, by simp⟩
  | some event =>
      simp only [requireInbound, Program.bind_assoc]
      refine look_rule stable here (fun rows here => ?_)
      have same : (store.view rows [.insertJob job]).inbound? event = rows.inbound? event := rfl
      rw [same]
      split
      case isTrue present =>
        exact continues rows ⟨here, fun other own => Option.some.inj own ▸ present⟩
      case isFalse =>
        rw [raise_bind]
        exact raise_rule stable here (by simp [unfenced])

theorem Stable.inboundRow {held : List Key} {inbound : Option Id}
    : Stable (Rely exact) held
        (fun rows => ∀ event, inbound = some event → (rows.inbound? event).isSome = true) := by
  intro rows later moved present event own
  obtain ⟨row, found⟩ := Option.isSome_iff_exists.mp (present event own)
  exact Option.isSome_iff_exists.mpr ⟨row, moved.1.inbound found⟩

section Insert

variable {submission : Submission} {id : Id} {now : Time} {held : List Key} {rows : Database}
  {job : Job}

theorem entries_kind {key : Key} (mem : key ∈ job.entries) : key.kind = 3 := by
  cases own : job.inboundEventId with
  | none =>
      simp only [Job.entries, own, Option.map_none, Option.toList_none, List.mem_singleton]
        at mem
      subst mem
      rfl
  | some event =>
      simp only [Job.entries, own, Option.map_some, Option.toList_some, List.mem_cons,
        List.not_mem_nil, or_false] at mem
      rcases mem with rfl | rfl <;> rfl

/-- Queueing ends in an admission, or answers with the job that is there. -/
theorem insertQueued_ensures (here : Admitting held job rows) (queued : job.status = .queued)
    (kinds : ∀ key ∈ held, key.kind < 3)
    : (insertQueued job >>= fun id => (Program.done (.id id) : Txn Reply)).Ensures
        (ledgerSetting config exact (.submitJob submission id now) began)
        (fun _ => Ends config exact (.submitJob submission id now)) ⟨rows, held, []⟩ := by
  have admitting : Stable (Rely exact) held (Admitting held job) :=
    Stable.consistent.and Stable.lineage
  simp only [insertQueued, Program.bind_assoc]
  refine insert_rule admitting here
    (fun _ _ key mem => orderly_entry (entries_kind mem) kinds)
    (fun key mem => List.mem_append_left _ mem) (by simp) (fun rows here absent => ?_)
    (fun rows _ here _ _ => ?_)
  · simp only [if_true, Program.bind_assoc]
    refine requireInbound_rule Stable.inserting ⟨here, absent⟩ rfl (fun rows here => ?_)
    refine done_rule (Stable.inserting.and Stable.inboundRow) here ?_
    rintro rows ⟨⟨⟨_, lineage⟩, absent⟩, resolves⟩
    have admits := admits_inserted
      (lineage.wider (fun key mem => List.mem_append_right job.entries mem)) absent resolves
      (Or.inl ⟨queued, rfl⟩)
    rw [← view_inserted] at admits
    exact ⟨.admission admits, by simp [Verb.fences]⟩
  · simp only [Bool.false_eq_true, if_false, Program.bind_assoc]
    refine look_rule admitting here (fun rows here => ?_)
    split <;> exact done_rule admitting here (fun _ _ => Ends.quiet rfl)

/-- Rejecting ends in an admission too: of a job that is dead from the start. -/
theorem insertRejected_ensures {reason : String}
    (here : Admitting held job.rejected rows)
    (kinds : ∀ key ∈ held, key.kind < 3)
    : (insertRejected job reason >>= fun id => (Program.done (.id id) : Txn Reply)).Ensures
        (ledgerSetting config exact (.submitJob submission id now) began)
        (fun _ => Ends config exact (.submitJob submission id now)) ⟨rows, held, []⟩ := by
  have admitting : Stable (Rely exact) held (Admitting held job.rejected) :=
    Stable.consistent.and Stable.lineage
  simp only [insertRejected, Program.bind_assoc]
  refine insertNew_rule admitting here
    (fun _ _ key mem => orderly_entry (entries_kind mem) kinds)
    (fun key mem => List.mem_append_left _ mem) (by simp) (by simp [Verb.fences])
    (fun rows here absent => ?_)
  refine requireInbound_rule Stable.inserting ⟨here, absent⟩ rfl (fun rows here => ?_)
  refine write_rule (Stable.inserting.and Stable.inboundRow) here (by simp [Change.keys])
    (fun _ _ => noFloor_of_other (by simp)) (fun rows here => ?_)
  refine done_rule (Stable.inserting.and Stable.inboundRow) here ?_
  rintro rows ⟨⟨⟨_, lineage⟩, absent⟩, resolves⟩
  have admits := admits_inserted
    (lineage.wider (fun key mem => List.mem_append_right job.rejected.entries mem)) absent
    resolves (Or.inr ⟨rfl, reason, rfl⟩)
  rw [← view_inserted] at admits
  exact ⟨.admission admits, by simp [Verb.fences]⟩

end Insert

theorem rejection_none {parent : Job} {children : Nat} (admitted : rejection parent children = none)
    : parent.status.terminal = false ∧ parent.depth + 1 ≤ maxDepth ∧ children < maxChildren := by
  unfold rejection at admitted
  dsimp only at admitted
  split at admitted
  · cases admitted
  · split at admitted
    · cases admitted
    · rename_i running bounded
      refine ⟨?_, by omega, by omega⟩
      cases status : parent.status <;> simp_all [JobStatus.live, JobStatus.terminal]

/-- `submit_job` admits a job, queued or rejected, or answers with the one that is there. -/
theorem submitJob_keeps (submission : Submission) (id : Id) (now : Time)
    : Keeps config exact (.submitJob submission id now) := by
  intro began holds
  simp only [code, submitJob]
  cases child : submission.parentId with
  | none =>
      refine insertQueued_ensures ⟨holds, fun _ => ⟨rfl, rfl, rfl⟩, fun parentId own => ?_⟩ rfl
        (by simp)
      rw [show (submission.job id id 0 .queued now).parentId = submission.parentId from rfl,
        child] at own
      cases own
  | some parentId =>
      simp only [lockJob, Program.bind_assoc]
      refine look_rule Stable.consistent holds (fun snapshot here => ?_)
      split
      case isFalse =>
        simp only [Program.pure_eq_done, Program.done_bind, raise_bind]
        exact raise_rule Stable.consistent here (by simp [Verb.fences])
      simp only [Program.bind_assoc]
      refine lock_rule Stable.consistent here (fun _ _ => Or.inr (Or.inl (by simp)))
        (fun rows here => ?_)
      refine look_rule Stable.consistent here (fun rows here => ?_)
      rw [Store.view_nil]
      simp only [Program.pure_eq_done, Program.done_bind]
      cases found : rows.job? parentId with
      | none =>
          simp only [raise_bind]
          exact raise_rule Stable.consistent here (by simp [Verb.fences])
      | some parent =>
          have stable : Stable (Rely exact) [.job parentId] (fun rows =>
                Consistent rows ∧ rows.job? parentId = some parent) :=
            Stable.consistent.and (Stable.job (by simp))
          simp only [Program.bind_assoc]
          refine look_rule stable ⟨here, found⟩ (fun rows here => ?_)
          rw [Store.view_nil]
          have kinds : ∀ key ∈ [Key.job parentId], key.kind < 3 := by simp [Key.kind]
          cases decided : rejection parent (rows.childCount parentId) with
          | some reason =>
              refine insertRejected_ensures ⟨here.1, fun root => ?_, fun other own => ?_⟩ kinds
              · rw [show (submission.job id parent.rootId (parent.depth + 1) .queued
                  now).rejected.parentId = submission.parentId from rfl, child] at root
                cases root
              · rw [show (submission.job id parent.rootId (parent.depth + 1) .queued
                  now).rejected.parentId = submission.parentId from rfl, child] at own
                obtain rfl := Option.some.inj own
                exact ⟨by simp, parent, here.2, rfl, rfl, fun queued => by cases queued⟩
          | none =>
              obtain ⟨running, bounded, room⟩ := rejection_none decided
              refine insertQueued_ensures ⟨here.1, fun root => ?_, fun other own => ?_⟩ rfl kinds
              · rw [show (submission.job id parent.rootId (parent.depth + 1) .queued
                  now).parentId = submission.parentId from rfl, child] at root
                cases root
              · rw [show (submission.job id parent.rootId (parent.depth + 1) .queued
                  now).parentId = submission.parentId from rfl, child] at own
                obtain rfl := Option.some.inj own
                exact ⟨by simp, parent, here.2, rfl, rfl, fun _ => ⟨running, bounded, room⟩⟩

end Ledger
