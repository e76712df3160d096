import Myndaix.Ledger.Letters
import Myndaix.Ledger.Ownership
import Myndaix.Relational.Forest

/-! Admission along the tree of jobs: depth and root are copied from the parent under its lock, no
job has too many live children, and what was not admitted stays dead with its one letter.
-/

namespace Ledger

open Interaction Relational Transactions

/-- The columns that make the jobs a tree. -/
def lineage : Hierarchy Job Id where
  key := Job.id
  parent := Job.parentId
  root := Job.rootId
  depth := Job.depth

/-- A job that was not admitted: dead, never attempted, with one letter about it. The letters name
their sources by id alone, so this says nothing where an outbound row has drawn the same id.
-/
structure Rejected (rows : Database) (id : Id) : Prop where
  dead : ∃ job, rows.job? id = some job ∧ job.status = .dead
  unattempted : rows.attemptCount id = 0
  letter
    : (∀ row ∈ rows.outbound, row.id ≠ id)
      → rows.deadLetters.countP (fun letter => letter.sourceId = id) = 1

/-- What admission promises of the jobs.
* The parents form a forest, with the depth and the root of every job.
* No job has too many children that are not dead.
* A job that is too deep was not admitted.
-/
structure AdmissionTree (rows : Database) : Prop where
  root
    : ∀ job ∈ rows.jobs, job.parentId = none → job.depth = 0 ∧ job.rootId = job.id
  child
    : ∀ job ∈ rows.jobs, ∀ parentId,
        job.parentId = some parentId
        → ∃ parent,
            rows.job? parentId = some parent
            ∧ job.depth = parent.depth + 1
            ∧ job.rootId = parent.rootId
  acyclic : ∀ id, ¬Relation.TransGen (lineage.Under rows.jobs) id id
  rooted
    : ∀ job ∈ rows.jobs,
        ∃ root ∈ rows.jobs,
          root.parentId = none
          ∧ root.id = job.rootId
          ∧ Relation.ReflTransGen (lineage.Under rows.jobs) root.id job.id
  fanOut : ∀ parent, rows.childCount parent ≤ maxChildren
  tooDeep : ∀ job ∈ rows.jobs, maxDepth < job.depth → Rejected rows job.id

/-- Every letter is about a job or an outbound row. -/
def Sourced (rows : Database) : Prop :=
  ∀ letter ∈ rows.deadLetters,
    (rows.job? letter.sourceId).isSome = true ∨ ∃ row ∈ rows.outbound, row.id = letter.sourceId

-- What a commit adds

/-- The letter that a change adds. -/
def Change.letter : Change → Option DeadLetter
  | .insertDeadLetter letter => some letter
  | _ => none

/-- Letters are only added, by induction on the changes. -/
theorem view_deadLetters (rows : Database) (changes : List Change)
    : (store.view rows changes).deadLetters
      = rows.deadLetters ++ changes.filterMap Change.letter := by
  induction changes generalizing rows with
  | nil => simp
  | cons change changes ih =>
      have one
          : (store.apply change rows).deadLetters = rows.deadLetters ++ change.letter.toList := by
        cases change <;> simp [store, storeWith, Change.apply, Change.letter]
      rw [Store.view_cons, ih, one, List.append_assoc]
      cases added : change.letter with
      | none => simp [added]
      | some letter => simp [added]

/-- All that is known of a transaction when it commits. -/
structure Committing (config : Config) (verb : Verb) (place : Place Database Key Change)
    : Prop where
  consistent : Consistent place.committed
  guarded : Guarded place
  ends : Ends config False verb place
  addressing : Addressing verb place

section Commits

variable {config : Config} {verb : Verb} {place : Place Database Key Change} {id : Id}

theorem Committing.evolves (committing : Committing config verb place)
    : Evolves (fun _ => True) place.committed (store.viewAt place) :=
  (committing.ends.commit.evolves committing.guarded.framed committing.consistent).mono
    fun _ _ => trivial

/-- A letter that a commit adds is about its own new job or about what was there. -/
theorem Committing.addressed (committing : Committing config verb place) {letter : DeadLetter}
    (mem : letter ∈ place.changes.filterMap Change.letter)
    : verb.newJob = some letter.sourceId ∨ About place.committed letter.sourceId := by
  obtain ⟨change, inside, added⟩ := List.mem_filterMap.mp mem
  cases change with
  | insertDeadLetter other =>
      obtain rfl := Option.some.inj added
      refine (committing.addressing _ inside).imp_right fun about => ?_
      obtain ⟨_, same, about⟩ := about
      cases same
      exact about
  | _ => cases added

/-- Outbound rows stay. -/
theorem Committing.outbound (committing : Committing config verb place)
    (unique : Unique Outbound.id place.committed.outbound)
    (row : ∃ row ∈ place.committed.outbound, row.id = id)
    : ∃ row ∈ (store.viewAt place).outbound, row.id = id := by
  obtain ⟨row, mem, rfl⟩ := row
  obtain ⟨next, found, _⟩ := committing.evolves.outbound (lookup_of_mem unique mem)
  exact ⟨next, lookup_mem found, lookup_key found⟩

/-- Jobs stay. -/
theorem Committing.job (committing : Committing config verb place)
    (present : (place.committed.job? id).isSome = true)
    : ((store.viewAt place).job? id).isSome = true := by
  obtain ⟨job, found⟩ := Option.isSome_iff_exists.mp present
  obtain ⟨next, found, _⟩ := committing.evolves.job found
  exact Option.isSome_iff_exists.mpr ⟨next, found⟩

/-- What letters are about is a job or an outbound row. -/
theorem Consistent.about {rows : Database} (consistent : Consistent rows) (about : About rows id)
    : (rows.job? id).isSome = true ∨ ∃ row ∈ rows.outbound, row.id = id := by
  refine about.imp_left fun attempt => ?_
  obtain ⟨attempt, mem, rfl⟩ := attempt
  exact consistent.attemptJob attempt mem

end Commits

-- The tree

variable {held : List Key} {exact : Prop} {job : Job}

section Tree

variable {config : Config} {verb : Verb} {place : Place Database Key Change} {id : Id}

variable {database later : Database}

/-- A claim moves the rows of its job's id along. -/
theorem Claims.keepsForest {attempt : Attempt}
    (claims : Claims config exact held database later job attempt)
    (forest : lineage.Forest database.jobs)
    : lineage.Forest later.jobs := by
  rw [claims.jobs]
  refine forest.map ?_ ?_ ?_ ?_
  all_goals
    intro row
    split
    · rfl
    · rfl

/-- Commits copy the parent's root and count one level down. -/
theorem Commit.forest (commit : Commit config exact verb held database later)
    (forest : lineage.Forest database.jobs)
    : lineage.Forest later.jobs := by
  cases commit with
  | quiet => exact forest
  | settle settles =>
      rw [settles.jobs]
      refine forest.map settles.moveId settles.moveParent (fun row => ?_) (fun row => ?_)
      · exact (congrArg Job.rootId (settles.moveKept row)).trans rfl
      · exact (congrArg Job.depth (settles.moveKept row)).trans rfl
  | claim claims => exact claims.keepsForest forest
  | admission admits =>
      rw [admits.jobs]
      refine forest.append (fun top => ?_) (fun parentId named => ?_)
      · exact ⟨(admits.root top).1, (admits.root top).2.1⟩
      · obtain ⟨_, parent, found, level, same, _⟩ := admits.child parentId named
        exact ⟨parent, found, level, same⟩
  | ingest receives =>
      rw [receives.same]
      exact forest
  | deliver outbox delivers =>
      rw [delivers.same]
      exact forest
  | enqueue enqueues =>
      rw [enqueues.same]
      exact forest

/-- An admitted child finds room under its parent, and no other commit adds one. -/
theorem Commit.fanOut (commit : Commit config exact verb held database later)
    (consistent : Consistent database) (fanOut : ∀ parent, database.childCount parent ≤ maxChildren)
    (parent : Id)
    : later.childCount parent ≤ maxChildren := by
  cases commit with
  | quiet => exact fanOut parent
  | settle settles => exact Nat.le_trans (settles.childCount parent) (fanOut parent)
  | claim claims =>
      exact Nat.le_trans (Nat.le_of_eq (claims.childCount consistent parent)) (fanOut parent)
  | @admission _ _ _ _ _ _ job _ admits =>
      have added
          : later.childCount parent
            = database.childCount parent
              + if job.parentId = some parent ∧ job.status ≠ .dead then 1 else 0 := by
        simp [Database.childCount, admits.jobs, List.countP_append, List.countP_cons]
      rw [added]
      split
      · rename_i counted
        obtain ⟨_, _, _, _, _, room⟩ := admits.child parent counted.1
        have queued : job.status = .queued :=
          (admits.status.resolve_right fun dead => counted.2 dead.1).1
        exact (room queued).2.2
      · exact fanOut parent
  | ingest receives =>
      rw [receives.same]
      exact fanOut parent
  | deliver outbox delivers =>
      rw [delivers.same]
      exact fanOut parent
  | enqueue enqueues =>
      rw [enqueues.same]
      exact fanOut parent

/-- A job that a commit adds was admitted by it, or rejected. -/
theorem Commit.admitted (commit : Commit config exact verb held database later)
    (absent : database.job? id = none) (found : later.job? id = some job)
    : ∃ letters, Admits held database later job letters := by
  cases commit with
  | quiet => rw [absent] at found; cases found
  | settle settles => rw [settles.job?, absent] at found; cases found
  | claim claims => rw [claims.job?, absent] at found; cases found
  | @admission _ _ _ _ _ _ added letters admits =>
      have own : id = added.id := by
        by_contra other
        rw [admits.otherJob other, absent] at found
        cases found
      subst own
      obtain rfl := Option.some.inj (admits.added.symm.trans found)
      exact ⟨letters, admits⟩
  | ingest receives =>
      rw [receives.same] at found
      exact absurd (absent.symm.trans found) nofun
  | deliver outbox delivers =>
      rw [delivers.same] at found
      exact absurd (absent.symm.trans found) nofun
  | enqueue enqueues =>
      rw [enqueues.same] at found
      exact absurd (absent.symm.trans found) nofun

/-- A submission writes letters about its own new job only. -/
theorem Commit.submitted {submission : Submission} {now : Time} {added : List DeadLetter}
    {letter : DeadLetter}
    (commit : Commit config exact (.submitJob submission id now) held database later)
    (listed : later.deadLetters = database.deadLetters ++ added) (mem : letter ∈ added)
    : database.job? letter.sourceId = none ∧ (later.job? letter.sourceId).isSome = true := by
  cases commit with
  | quiet =>
      rw [List.self_eq_append_right.mp listed] at mem
      cases mem
  | settle settles =>
      rw [settles.deadLetters] at listed
      obtain rfl := List.append_cancel_left listed
      cases (settles.letterRows letter mem).1
  | admission admits =>
      rw [admits.deadLetters] at listed
      obtain rfl := List.append_cancel_left listed
      rcases admits.status with ⟨_, none_⟩ | ⟨_, reason, only⟩
      · rw [none_] at mem
        cases mem
      · rw [only] at mem
        obtain rfl := List.mem_singleton.mp mem
        exact ⟨admits.fresh, Option.isSome_iff_exists.mpr ⟨_, admits.added⟩⟩
  | deliver outbox _ => cases outbox

/-- A new letter is about a new job or about what was there. -/
theorem Committing.newLetter (committing : Committing config verb place) {letter : DeadLetter}
    (mem : letter ∈ place.changes.filterMap Change.letter)
    : (place.committed.job? letter.sourceId = none
        ∧ ((store.viewAt place).job? letter.sourceId).isSome = true)
      ∨ About place.committed letter.sourceId := by
  refine (committing.addressed mem).imp_left fun own => ?_
  have commit := committing.ends.commit
  cases verb with
  | submitJob submission id now => exact commit.submitted (view_deadLetters _ _) mem
  | _ => cases own

/-- Letters stay about jobs and outbound rows. -/
theorem Committing.sourced (committing : Committing config verb place)
    (sourced : Sourced place.committed)
    : Sourced (store.viewAt place) := by
  intro letter mem
  have carried
      (before
        : (place.committed.job? letter.sourceId).isSome = true
          ∨ ∃ row ∈ place.committed.outbound, row.id = letter.sourceId)
      : ((store.viewAt place).job? letter.sourceId).isSome = true
        ∨ ∃ row ∈ (store.viewAt place).outbound, row.id = letter.sourceId :=
    before.imp committing.job (committing.outbound committing.consistent.uniqueOutbound)
  have listed : (store.viewAt place).deadLetters = _ :=
    view_deadLetters place.committed place.changes
  rw [listed] at mem
  rcases List.mem_append.mp mem with old | new
  · exact carried (sourced letter old)
  · rcases committing.newLetter new with ⟨_, added⟩ | about
    · exact .inl added
    · exact carried (committing.consistent.about about)

/-- A job that was never attempted gets no further letter. -/
theorem Committing.unaddressed (committing : Committing config verb place)
    (present : place.committed.job? id = some job)
    (unattempted : place.committed.attemptCount id = 0)
    (separate : ∀ row ∈ place.committed.outbound, row.id ≠ id)
    : (store.viewAt place).deadLetters.countP (fun letter => letter.sourceId = id)
      = place.committed.deadLetters.countP (fun letter => letter.sourceId = id) := by
  have none_
      : (place.changes.filterMap Change.letter).countP
        (fun letter => letter.sourceId = id) = 0 := by
    refine List.countP_eq_zero.mpr fun letter mem own => ?_
    have own : letter.sourceId = id := by simpa using own
    subst own
    rcases committing.newLetter mem with ⟨absent, _⟩ | ⟨attempt, inside, same⟩ | ⟨row, inside, same⟩
    · exact absurd (absent.symm.trans present) nofun
    · have counted := List.countP_eq_zero.mp unattempted attempt inside
      exact counted (by simpa using same)
    · exact separate row inside same
  have listed : (store.viewAt place).deadLetters = _ :=
    view_deadLetters place.committed place.changes
  rw [listed, List.countP_append, none_, Nat.add_zero]

/-- Only a queued job gets an attempt. -/
theorem Commit.unattempted (commit : Commit config exact verb held database later)
    (found : database.job? id = some job) (dead : job.status = .dead)
    : later.attemptCount id = database.attemptCount id := by
  cases commit with
  | quiet => rfl
  | settle settles => exact settles.attemptCount id
  | @claim _ _ _ _ _ _ _ leased _ claims =>
      have other : leased.id ≠ id := by
        intro same
        subst same
        obtain rfl := Option.some.inj (claims.found.symm.trans found)
        rw [claims.queued] at dead
        cases dead
      simp [claims.attemptCount, other]
  | admission admits => exact admits.attemptCount id
  | ingest receives => rw [receives.same]; rfl
  | deliver outbox delivers => rw [delivers.same]; rfl
  | enqueue enqueues => rw [enqueues.same]; rfl

/-- What was not admitted stays so. -/
theorem Committing.rejected (committing : Committing config verb place)
    (rejected : Rejected place.committed id)
    : Rejected (store.viewAt place) id := by
  obtain ⟨job, found, dead⟩ := rejected.dead
  have unattempted := (committing.ends.commit.unattempted found dead).trans rejected.unattempted
  refine ⟨?_, unattempted, fun separate => ?_⟩
  · obtain ⟨next, found', _⟩ := committing.evolves.job found
    have final := (committing.evolves.jobContinues found found').final (by rw [dead]; rfl)
    exact ⟨next, found', final ▸ dead⟩
  · have separate : ∀ row ∈ place.committed.outbound, row.id ≠ id := by
      intro row mem same
      obtain ⟨next, inside, kept⟩ :=
        committing.outbound committing.consistent.uniqueOutbound ⟨row, mem, same⟩
      exact separate next inside kept
    rw [committing.unaddressed found rejected.unattempted separate]
    exact rejected.letter separate

/-- A job that is dead from the start was not admitted. -/
theorem Committing.rejects (committing : Committing config verb place)
    (sourced : Sourced place.committed) {letters : List DeadLetter}
    (admits : Admits place.locks place.committed (store.viewAt place) job letters)
    (dead : job.status = .dead)
    : Rejected (store.viewAt place) job.id := by
  refine ⟨⟨job, admits.added, dead⟩, ?_, fun separate => ?_⟩
  · rw [admits.attemptCount]
    refine List.countP_eq_zero.mpr fun attempt mem own => ?_
    exact committing.consistent.absent_attempt admits.fresh mem (by simpa using own)
  · have none_
        : place.committed.deadLetters.countP (fun letter => letter.sourceId = job.id) = 0 := by
      refine List.countP_eq_zero.mpr fun letter mem own => ?_
      have own : letter.sourceId = job.id := by simpa using own
      rcases sourced letter mem with present | ⟨row, inside, same⟩
      · rw [own, admits.fresh] at present
        cases present
      · rw [admits.outbound] at separate
        exact separate row inside (same.trans own)
    rcases admits.status with ⟨queued, _⟩ | ⟨_, reason, only⟩
    · rw [dead] at queued
      cases queued
    · rw [admits.deadLetters, only, List.countP_append, none_]
      simp

end Tree

-- Runs

/-- The invariant of admission. -/
structure Admission (rows : Database) : Prop where
  forest : lineage.Forest rows.jobs
  fanOut : ∀ parent, rows.childCount parent ≤ maxChildren
  sourced : Sourced rows
  tooDeep : ∀ job ∈ rows.jobs, maxDepth < job.depth → Rejected rows job.id

theorem Admission.empty : Admission .empty where
  forest := .nil
  fanOut := by simp [Database.childCount, Database.empty]
  sourced := by simp [Sourced, Database.empty]
  tooDeep := by simp [Database.empty]

/-- Every commit keeps admission. -/
theorem Committing.admission {config : Config} {verb : Verb} {place : Place Database Key Change}
    (committing : Committing config verb place) (admission : Admission place.committed)
    : Admission (store.viewAt place) where
  forest := committing.ends.commit.forest admission.forest
  fanOut := committing.ends.commit.fanOut committing.consistent admission.fanOut
  sourced := committing.sourced admission.sourced
  tooDeep := by
    intro job mem deep
    have later := committing.evolves.consistent committing.consistent
    have found : (store.viewAt place).job? job.id = some job := lookup_of_mem later.uniqueJob mem
    cases before : place.committed.job? job.id with
    | some old =>
        have continues := committing.evolves.jobContinues before found
        have sameDepth : job.depth = old.depth := (congrArg Job.depth continues.same).trans rfl
        have rejected := admission.tooDeep old (lookup_mem before) (sameDepth ▸ deep)
        rw [lookup_key before] at rejected
        exact committing.rejected rejected
    | none =>
        obtain ⟨letters, admits⟩ := committing.ends.commit.admitted before found
        refine committing.rejects admission.sourced admits ?_
        rcases admits.status with ⟨queued, _⟩ | ⟨dead, _⟩
        · cases parent : job.parentId with
          | none =>
              have flat := (admits.root parent).1
              omega
          | some parentId =>
              obtain ⟨_, _, _, _, _, room⟩ := admits.child parentId parent
              have := (room queued).2.1
              omega
        · exact dead

/-- The jobs of a consistent ledger are a tree of admissions. -/
theorem Admission.tree {rows : Database} (admission : Admission rows) (consistent : Consistent rows)
    : AdmissionTree rows where
  root := admission.forest.root
  child := admission.forest.child
  acyclic := admission.forest.acyclic
  rooted := by
    intro job mem
    obtain ⟨root, inside, top, named, path⟩ := admission.forest.rooted consistent.uniqueJob mem
    have named : root.id = job.rootId := named
    exact ⟨root, inside, top, named, named ▸ path⟩
  fanOut := admission.fanOut
  tooDeep := admission.tooDeep

section Runs

variable {Client : Type} [DecidableEq Client] {config : Config}
  {system later next : LedgerSystem Client} {client : Client}
  {event : Event LedgerError Verb Reply}

/-- A step commits nothing, or a transaction of which all is known. -/
theorem step_committing (reachable : LedgerReachable config system)
    (step : Step store (code config) system client event next)
    : next.committed = system.committed
      ∨ ∃ verb place,
          Committing config verb place
          ∧ place.committed = system.committed
          ∧ next.committed = store.viewAt place := by
  cases step with
  | began | acted | aborted | crashed => exact .inl rfl
  | @committed session _ open_ finished =>
      have sound := ledger_sound reachable
      have verified := @addresses_verified Client config unrestricted
      have addressed := verified.sound trivial reachable
      obtain ⟨guarded, ends⟩ := sound.finished open_ finished
      exact .inr ⟨session.verb, system.place session,
        ⟨sound.invariant, guarded, ends, addressed.finished open_ finished⟩, rfl, rfl⟩

/-- Admission holds in every reachable state, by induction on the run. -/
theorem admission_reachable (reachable : LedgerReachable config system)
    : Admission system.committed := by
  induction reachable with
  | start => exact .empty
  | step earlier step _ ih =>
      rcases step_committing earlier step with same | ⟨verb, place, committing, before, after⟩
      · exact same ▸ ih
      · rw [after]
        exact committing.admission (before ▸ ih)

/-- What was not admitted is never admitted later, by induction on the later steps. -/
theorem rejected_onward (reachable : LedgerReachable config system) {id : Id}
    (rejected : Rejected system.committed id) (onward : Onward store (code config) system later)
    : Rejected later.committed id := by
  induction onward with
  | refl => exact rejected
  | tail before step ih =>
      obtain ⟨client, event, step⟩ := step
      rcases step_committing (reachable.onward before) step with same |
        ⟨verb, place, committing, here, after⟩
      · exact same ▸ ih
      · rw [after]
        exact committing.rejected (here ▸ ih)

/-- In every state of every run, the jobs are a tree of admissions. A job that a step adds under a
parent is queued under a parent that is queued, leased or running, not too deep and with room for
it, or it is dead then and in every later state, with exactly one letter about it.
-/
theorem admission_tree (reachable : LedgerReachable config system)
    : AdmissionTree system.committed
      ∧ ∀ client event next,
          Step store (code config) system client event next
          → ∀ id job parentId,
              system.committed.job? id = none
              → next.committed.job? id = some job
              → job.parentId = some parentId
              → ∃ parent,
                  system.committed.job? parentId = some parent
                  ∧ ((job.status = .queued
                      ∧ (parent.status = .queued ∨ parent.status.live = true)
                      ∧ job.depth ≤ maxDepth
                      ∧ system.committed.childCount parentId < maxChildren)
                    ∨ ∀ later,
                        Onward store (code config) next later → Rejected later.committed id) := by
  have admission := admission_reachable reachable
  refine ⟨admission.tree (ledger_sound reachable).invariant, ?_⟩
  intro client event next step id job parentId absent found named
  rcases step_committing reachable step with same | ⟨verb, place, committing, before, after⟩
  · rw [same, absent] at found
    cases found
  · rw [← before] at absent admission ⊢
    rw [after] at found
    obtain ⟨letters, admits⟩ := committing.ends.commit.admitted absent found
    obtain ⟨_, parent, above, _, _, room⟩ := admits.child parentId named
    refine ⟨parent, above, ?_⟩
    rcases admits.status with ⟨queued, _⟩ | ⟨dead, _⟩
    · obtain ⟨running, shallow, free⟩ := room queued
      refine .inl ⟨queued, ?_, shallow, free⟩
      cases status : parent.status with
      | queued => exact .inl rfl
      | leased | running => exact .inr rfl
      | done | failed | dead => rw [status] at running; cases running
    · refine .inr fun later onward => ?_
      have rejected : Rejected next.committed id := by
        rw [after, ← lookup_key found]
        exact committing.rejects admission.sourced admits dead
      exact rejected_onward (reachable.step step trivial) rejected onward

end Runs

/-- A job with a child, cancelled before a second child is submitted. -/
def sampleFamily : List Verb :=
  [
    .submitJob ⟨"echo", "hello", none, none, "user", none, none, 0⟩ 1 10,
    .submitJob ⟨"echo", "first", some 1, none, "user", none, none, 0⟩ 2 20,
    .cancel 1 30,
    .submitJob ⟨"echo", "second", some 1, none, "user", none, none, 0⟩ 3 40
  ]

/-- The first child is queued and counted, the second one is dead from the start. -/
theorem sample_admission_tree
    : ((sampleState sampleFamily).jobs.map Job.status = [.dead, .queued, .dead]
        ∧ (sampleState sampleFamily).childCount 1 = 1
        ∧ (sampleState sampleFamily).deadLetters.map DeadLetter.sourceId = [3])
      ∧ AdmissionTree (sampleState sampleFamily) :=
  ⟨by decide, (admission_tree (sample_reachable sampleFamily)).1⟩

end Ledger
