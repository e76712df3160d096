import Myndaix.Ledger.Protocol

/-! The proof rules of the ledger's statements: which facts stay true under which locks, and
what each kind of statement ensures.
-/

namespace Ledger

open Interaction Relational Transactions

section Stable

variable {exact : Prop} {held : List Key}

/-- More locks, more that stays true. -/
theorem Stable.mono {fact : Database → Prop} {wider : List Key}
    (stable : Stable (Rely exact) held fact) (within : ∀ key ∈ held, key ∈ wider)
    : Stable (Rely exact) wider fact :=
  fun _ _ moved holds =>
    stable ⟨moved.1.mono (fun key free inside => free (within key inside)), moved.2⟩ holds

theorem Stable.lock {fact : Database → Prop} (key : Key)
    (stable : Stable (Rely exact) held fact)
    : Stable (Rely exact) (key :: held) fact :=
  Stable.mono stable (fun _ mem => List.mem_cons_of_mem key mem)

theorem Stable.consistent : Stable (Rely exact) held Consistent :=
  fun _ _ moved holds => moved.1.consistent holds

/-- Nobody else ran, so nothing changed. -/
theorem Stable.alone (began : Database)
    : Stable (Rely exact) held (fun rows => exact → rows = began) :=
  fun _ _ moved holds alone => (moved.2 alone).trans (holds alone)

theorem Stable.job {id : Id} {job : Job} (locked : Key.job id ∈ held)
    : Stable (Rely exact) held (fun rows => rows.job? id = some job) := by
  intro rows later moved found
  obtain ⟨next, found', frame⟩ := moved.1.job found
  rw [found', frame (not_not_intro locked)]

/-- A job's row stays, whatever happens to its status. -/
theorem Stable.jobRow {id : Id} {job : Job}
    : Stable (Rely exact) held
      (fun rows => ∃ next, rows.job? id = some next ∧ job.Continues next) := by
  rintro rows later moved ⟨next, found, continues⟩
  obtain ⟨last, found', _⟩ := moved.1.job found
  exact ⟨last, found', continues.trans (moved.1.jobContinues found found')⟩

/-- A terminal job's row is final. -/
theorem Stable.terminalJob {held : List Key} {id : Id} {job : Job}
    (terminal : job.status.terminal = true)
    : Stable (Rely exact) held (fun rows => rows.job? id = some job) := by
  intro rows later moved found
  obtain ⟨next, found', _⟩ := moved.1.job found
  rw [found', (moved.1.jobContinues found found').final terminal]

theorem Stable.attempt {id : Id} {attempt : Attempt} (locked : Key.attempt id ∈ held)
    : Stable (Rely exact) held (fun rows => rows.attempt? id = some attempt) := by
  intro rows later moved found
  obtain ⟨next, found', frame⟩ := moved.1.attempt found
  rw [found', frame (not_not_intro locked)]

theorem Stable.attemptRow {id : Id} {attempt : Attempt}
    : Stable (Rely exact) held
        (fun rows => ∃ next, rows.attempt? id = some next ∧ attempt.Continues next) := by
  rintro rows later moved ⟨next, found, continues⟩
  obtain ⟨last, found', _⟩ := moved.1.attempt found
  exact ⟨last, found', continues.trans (moved.1.attemptContinues found found')⟩

theorem Stable.repo {repo : String}
    : Stable (Rely exact) held (fun rows => (rows.repo? repo).isSome = true) :=
  fun _ _ moved present => moved.1.toFramed.repo_isSome present

theorem Stable.outbound {id : Id} {row : Outbound} (locked : Key.outbound id ∈ held)
    : Stable (Rely exact) held (fun rows => rows.outbound? id = some row) := by
  intro rows later moved found
  obtain ⟨next, found', frame⟩ := moved.1.outbound found
  rw [found', frame (not_not_intro locked)]

theorem Stable.absent {key : Key} (locked : key ∈ held)
    : Stable (Rely exact) held (fun rows => key.present rows = false) :=
  fun _ _ moved absent => moved.1.absent (not_not_intro locked) absent

/-- Under its counter's lock a repository's hard count can only fall. -/
theorem Stable.openNow {repo : String} {count : Nat} (locked : Key.repo repo ∈ held)
    : Stable (Rely exact) held (fun rows => rows.openNow repo ≤ count) :=
  fun _ _ moved bounded => Nat.le_trans (moved.1.openNow (not_not_intro locked)) bounded

theorem Stable.attemptCount {job : Id} {count : Nat} (locked : Key.job job ∈ held)
    : Stable (Rely exact) held (fun rows => rows.attemptCount job = count) :=
  fun _ _ moved counted => (moved.1.attemptCount (not_not_intro locked)).trans counted

theorem Stable.childCount {parent : Id} {count : Nat} (locked : Key.job parent ∈ held)
    : Stable (Rely exact) held (fun rows => rows.childCount parent ≤ count) :=
  fun _ _ moved bounded => Nat.le_trans (moved.1.childCount (not_not_intro locked)) bounded

end Stable

section Statements

variable {config : Config} {exact : Prop} {verb : Verb} {began : Database} {Answer : Type}
  {post : Answer → Place Database Key Change → Prop} {fact : Database → Prop}
  {database : Database} {locks : List Key} {changes : List Change}

theorem look_rule {next : Database → Txn Answer} (stable : Stable (Rely exact) locks fact)
    (holds : fact database)
    (continues
      : ∀ rows,
          fact rows
          → (next (store.view rows changes)).Ensures (ledgerSetting config exact verb began) post
              ⟨rows, locks, changes⟩)
    : (look >>= next).Ensures (ledgerSetting config exact verb began) post
        ⟨database, locks, changes⟩ :=
  Ensures.look stable holds (fun _ _ => trivial) continues

theorem lock_rule {key : Key} {next : Unit → Txn Answer}
    (stable : Stable (Rely exact) locks fact) (holds : fact database)
    (orderly : ∀ rows, fact rows → Orderly config verb began rows locks key)
    (continues
      : ∀ rows,
          fact rows
          → (next ()).Ensures (ledgerSetting config exact verb began) post
              ⟨rows, key :: locks, changes⟩)
    : (lock key >>= next).Ensures (ledgerSetting config exact verb began) post
        ⟨database, locks, changes⟩ :=
  Ensures.lock stable holds orderly continues

theorem tryLock_rule {key : Key} {next : Bool → Txn Answer}
    (stable : Stable (Rely exact) locks fact) (holds : fact database)
    (taken
      : ∀ rows,
          fact rows
          → (next true).Ensures (ledgerSetting config exact verb began) post
              ⟨rows, key :: locks, changes⟩)
    (skipped
      : ∀ rows,
          fact rows
          → (next false).Ensures (ledgerSetting config exact verb began) post
              ⟨rows, locks, changes⟩)
    : (tryLock key >>= next).Ensures (ledgerSetting config exact verb began) post
        ⟨database, locks, changes⟩ :=
  Ensures.tryLock stable holds (fun _ _ => trivial) taken skipped

/-- A change that is no decrement has no floor to reach. -/
theorem noFloor_of_other {place : Place Database Key Change} {change : Change}
    (other : ∀ repo slots, change ≠ .decrement repo slots)
    : NoFloor place change :=
  fun repo slots same => absurd same (other repo slots)

theorem insert_rule {keys : List Key} {change : Change} {next : Bool → Txn Answer}
    (stable : Stable (Rely exact) locks fact) (holds : fact database)
    (orderly : ∀ rows, fact rows → ∀ key ∈ keys, Orderly config verb began rows locks key)
    (guarded : ∀ key ∈ change.keys, key ∈ keys ++ locks)
    (grows : ∀ repo slots, change ≠ .decrement repo slots)
    (added
      : ∀ rows,
          fact rows
          → (∀ key ∈ keys, key.present (store.view rows changes) = false)
          → (next true).Ensures (ledgerSetting config exact verb began) post
              ⟨rows, keys ++ locks, changes ++ [change]⟩)
    (conflict
      : ∀ rows key,
          fact rows
          → key ∈ keys
          → key.present (store.view rows changes) = true
          → (next false).Ensures (ledgerSetting config exact verb began) post
              ⟨rows, locks, changes⟩)
    : (insert keys change >>= next).Ensures (ledgerSetting config exact verb began) post
        ⟨database, locks, changes⟩ :=
  Ensures.insert stable holds
    (fun rows here => ⟨orderly rows here, guarded, noFloor_of_other grows⟩) added conflict

theorem write_rule {change : Change} {next : Unit → Txn Answer}
    (stable : Stable (Rely exact) locks fact) (holds : fact database)
    (guarded : ∀ key ∈ change.keys, key ∈ locks)
    (noFloor : ∀ rows, fact rows → NoFloor ⟨rows, locks, changes⟩ change)
    (continues
      : ∀ rows,
          fact rows
          → (next ()).Ensures (ledgerSetting config exact verb began) post
              ⟨rows, locks, changes ++ [change]⟩)
    : (write change >>= next).Ensures (ledgerSetting config exact verb began) post
        ⟨database, locks, changes⟩ :=
  Ensures.write stable holds (fun rows here => ⟨guarded, noFloor rows here⟩) continues

theorem done_rule {answer : Answer} (stable : Stable (Rely exact) locks fact)
    (holds : fact database) (ends : ∀ rows, fact rows → post answer ⟨rows, locks, changes⟩)
    : (Program.done answer : Txn Answer).Ensures (ledgerSetting config exact verb began) post
        ⟨database, locks, changes⟩ :=
  Ensures.finish stable holds ends

theorem raise_rule {error : LedgerError} (stable : Stable (Rely exact) locks fact)
    (holds : fact database)
    (permitted
      : ∀ rows,
          fact rows
          → ∀ attemptId,
              verb.fences = some attemptId
              → (∃ message, error = .lostLease message) ∨ OpenIn rows attemptId)
    : (raise error : Txn Answer).Ensures (ledgerSetting config exact verb began) post
        ⟨database, locks, changes⟩ :=
  Ensures.raise stable holds permitted

/-- An update of one row changes it under its lock when the condition still holds of the latest
version; `fact'` is what the caller learns from the condition.
-/
theorem updateFrom_rule {snapshot : Database} {key : Key} {condition : Database → Bool}
    {change : Change} {next : Bool → Txn Answer} {fact' : Database → Prop}
    (stable : Stable (Rely exact) locks fact) (holds : fact database)
    (orderly
      : condition snapshot = true → ∀ rows, fact rows → Orderly config verb began rows locks key)
    (learned
      : condition snapshot = true
        → ∀ rows, fact rows → condition (store.view rows changes) = true → fact' rows)
    (stable' : Stable (Rely exact) (key :: locks) fact')
    (guarded : ∀ wanted ∈ change.keys, wanted ∈ key :: locks)
    (noFloor : ∀ rows, fact' rows → NoFloor ⟨rows, key :: locks, changes⟩ change)
    (changed
      : ∀ rows,
          fact' rows
          → (next true).Ensures (ledgerSetting config exact verb began) post
              ⟨rows, key :: locks, changes ++ [change]⟩)
    (gone
      : condition snapshot = true
        → ∀ rows,
            fact rows
            → condition (store.view rows changes) = false
            → (next false).Ensures (ledgerSetting config exact verb began) post
                ⟨rows, key :: locks, changes⟩)
    (skipped
      : condition snapshot = false
        → ∀ rows,
            fact rows
            → (next false).Ensures (ledgerSetting config exact verb began) post
                ⟨rows, locks, changes⟩)
    : (updateFrom snapshot key condition change >>= next).Ensures
        (ledgerSetting config exact verb began) post ⟨database, locks, changes⟩ := by
  unfold updateFrom
  by_cases found : condition snapshot = true
  · simp only [found, if_true, Program.bind_assoc]
    refine lock_rule stable holds (orderly found) (fun rows here => ?_)
    refine look_rule (Stable.lock key stable) here (fun rows here => ?_)
    by_cases still : condition (store.view rows changes) = true
    · simp only [still, if_true, Program.bind_assoc]
      exact write_rule stable' (learned found rows here still) guarded noFloor changed
    · simp only [Bool.not_eq_true] at still
      simp only [still, Bool.false_eq_true, if_false]
      exact gone found rows here still
  · simp only [Bool.not_eq_true] at found
    simp only [found, Bool.false_eq_true, if_false]
    exact skipped found database holds

/-- Locking several rows by skipping takes all of them or stops at one, by induction on them. -/
theorem tryLocks_rule {keys : List Key} {next : Bool → Txn Answer}
    (stable : Stable (Rely exact) locks fact) (holds : fact database)
    (taken
      : ∀ rows more,
          fact rows → (∀ key ∈ keys, key ∈ more) → (∀ key ∈ more, key ∈ keys)
          → (next true).Ensures (ledgerSetting config exact verb began) post
              ⟨rows, more ++ locks, changes⟩)
    (skipped
      : ∀ rows more,
          fact rows → (∀ key ∈ more, key ∈ keys)
          → (next false).Ensures (ledgerSetting config exact verb began) post
              ⟨rows, more ++ locks, changes⟩)
    : (tryLocks keys >>= next).Ensures (ledgerSetting config exact verb began) post
        ⟨database, locks, changes⟩ := by
  induction keys generalizing locks database with
  | nil => exact taken database [] holds (by simp) (by simp)
  | cons key keys ih =>
      simp only [tryLocks, Program.bind_assoc]
      refine tryLock_rule stable holds (fun rows here => ?_) (fun rows here => ?_)
      · simp only [if_true]
        refine ih (Stable.lock key stable) here ?_ ?_
        · intro rows more here all within
          have locked := taken rows (more ++ [key]) here (by simp; tauto) (by simp; tauto)
          simpa using locked
        · intro rows more here within
          have locked := skipped rows (more ++ [key]) here (by simp; tauto)
          simpa using locked
      · simp only [Bool.false_eq_true, if_false]
        exact skipped rows [] here (by simp)

/-- A loop whose locks and changes are known from the items behind it; what it has accumulated
and what it knows of the committed rows are the invariant.
-/
theorem fold_rule {Item Accumulated : Type} {body : Accumulated → Item → Txn Accumulated}
    {items : List Item} {accumulated : Accumulated} {next : Accumulated → Txn Answer}
    (locksAt : List Item → List Key) (changesAt : List Item → List Change)
    (factAt : Accumulated → List Item → Database → Prop)
    (stable : ∀ accumulated done, Stable (Rely exact) (locksAt done) (factAt accumulated done))
    (round
      : ∀ accumulated done item rest rows,
          items = done ++ item :: rest
          → factAt accumulated done rows
          → (body accumulated item).Ensures (ledgerSetting config exact verb began)
              (fun next place => ∃ rows,
                place = ⟨rows, locksAt (done ++ [item]), changesAt (done ++ [item])⟩
                ∧ factAt next (done ++ [item]) rows)
              ⟨rows, locksAt done, changesAt done⟩)
    (holds : factAt accumulated [] database) (startLocks : locks = locksAt [])
    (startChanges : changes = changesAt [])
    (continues
      : ∀ last rows,
          factAt last items rows
          → (next last).Ensures (ledgerSetting config exact verb began) post
              ⟨rows, locksAt items, changesAt items⟩)
    : (Program.fold body accumulated items >>= next).Ensures
        (ledgerSetting config exact verb began) post ⟨database, locks, changes⟩ := by
  subst startLocks startChanges
  refine (Program.Ensures.fold
    (fun accumulated rest place => ∃ done rows,
      items = done ++ rest ∧ place = ⟨rows, locksAt done, changesAt done⟩
      ∧ factAt accumulated done rows)
    ?_ ?_ ⟨[], database, rfl, rfl, holds⟩).bind ?_
  · rintro accumulated rest _ ⟨rows', locks', changes'⟩ ⟨done, rows, split, rfl, here⟩
      ⟨sameLocks, sameChanges, moved⟩
    simp only at sameLocks sameChanges moved
    subst sameLocks sameChanges
    exact ⟨done, rows', split, rfl, stable accumulated done moved here⟩
  · rintro accumulated item rest _ ⟨done, rows, split, rfl, here⟩
    refine (round accumulated done item rest rows split here).weaken ?_
    rintro next _ ⟨rows, rfl, here⟩
    exact ⟨done ++ [item], rows, by simp [split], rfl, here⟩
  · rintro last _ ⟨done, rows, split, rfl, here⟩
    rw [List.append_nil] at split
    subst split
    exact continues last rows here

section Select

variable {Item : Type} {keys : Item → List Key} {condition : Database → Item → Bool}
  {limit : Nat} {items : List Item} {learned : Item → Database → Prop}

/-- A skipping select under way: some rows are selected, each with its locks and with what its
condition taught, and `rest` is still to come.
-/
def Selecting (keys : Item → List Key) (limit : Nat) (items : List Item)
    (learned : Item → Database → Prop) (fact : Database → Prop) (locks : List Key)
    (changes : List Change) (selected rest : List Item) (place : Place Database Key Change)
    : Prop :=
  ∃ done more rows,
    place = ⟨rows, more ++ locks, changes⟩
    ∧ items = done ++ rest
    ∧ fact rows
    ∧ selected.Sublist done
    ∧ selected.length ≤ limit
    ∧ (∀ item ∈ selected, learned item rows ∧ ∀ key ∈ keys item, key ∈ more)
    ∧ ∀ key ∈ more, ∃ item ∈ items, key ∈ keys item

variable
  (stableItem
    : ∀ item held, (∀ key ∈ keys item, key ∈ held) → Stable (Rely exact) held (learned item))

include stableItem

theorem Selecting.interfere (stable : Stable (Rely exact) locks fact)
    {selected rest : List Item} {place later : Place Database Key Change}
    (selecting : Selecting keys limit items learned fact locks changes selected rest place)
    (moved : (ledgerSetting config exact verb began).interferes place later)
    : Selecting keys limit items learned fact locks changes selected rest later := by
  obtain ⟨done, more, rows, rfl, split, here, sub, bound, each, within⟩ := selecting
  obtain ⟨rows', locks', changes'⟩ := later
  obtain ⟨sameLocks, sameChanges, moved⟩ := moved
  simp only at sameLocks sameChanges moved
  subst sameLocks sameChanges
  refine ⟨done, more, rows', rfl, split, ?_, sub, bound, ?_, within⟩
  · exact Stable.mono stable (fun key mem => List.mem_append_right more mem) moved here
  · intro item mem
    obtain ⟨known, locked⟩ := each item mem
    refine ⟨stableItem item _ ?_ moved known, locked⟩
    exact fun key inside => List.mem_append_left locks (locked key inside)

/-- One row of the select keeps its promise: skipped rows only add locks, and a selected one has
passed its condition under its locks.
-/
theorem selectRow_ensures (stable : Stable (Rely exact) locks fact)
    (learns
      : ∀ item ∈ items, ∀ rows,
          fact rows → condition (store.view rows changes) item = true → learned item rows)
    {selected rest : List Item} {item : Item} {place : Place Database Key Change}
    (selecting
      : Selecting keys limit items learned fact locks changes selected (item :: rest) place)
    : (selectRow keys condition limit selected item).Ensures
        (ledgerSetting config exact verb began)
        (fun selected => Selecting keys limit items learned fact locks changes selected rest)
        place := by
  obtain ⟨done, more, rows, rfl, split, here, sub, bound, each, within⟩ := selecting
  have ofItem : item ∈ items := by simp [split]
  have wide (extra : List Key) : Stable (Rely exact) (extra ++ (more ++ locks)) fact :=
    Stable.mono stable (fun key mem =>
      List.mem_append_right extra (List.mem_append_right more mem))
  have known {next : List Item} {extra : List Key}
      (locked : ∀ item ∈ next, ∀ key ∈ keys item, key ∈ extra ++ more)
      : Stable (Rely exact) (extra ++ (more ++ locks))
          (fun rows => ∀ item ∈ next, learned item rows) := by
    refine fun rows later moved holds item mem =>
      stableItem item _ (fun key inside => ?_) moved (holds item mem)
    rw [← List.append_assoc]
    exact List.mem_append_left locks (locked item mem key inside)
  -- A round that ends here has selected `next`, whatever it locked for this row.
  have finish {next : List Item} {extra : List Key} {rows : Database}
      (sublist : next.Sublist (done ++ [item])) (room : next.length ≤ limit)
      (inside : ∀ key ∈ extra, key ∈ keys item)
      (here : fact rows ∧ ∀ item ∈ next, learned item rows)
      (locked : ∀ item ∈ next, ∀ key ∈ keys item, key ∈ extra ++ more)
      : (Program.done next : Txn (List Item)).Ensures (ledgerSetting config exact verb began)
          (fun selected => Selecting keys limit items learned fact locks changes selected rest)
          ⟨rows, extra ++ (more ++ locks), changes⟩ := by
    refine done_rule ((wide extra).and (known locked)) here (fun rows here => ?_)
    refine ⟨done ++ [item], extra ++ more, rows, by rw [List.append_assoc], by simpa using split,
      here.1, sublist, room, fun item mem => ⟨here.2 item mem, locked item mem⟩, ?_⟩
    intro key mem
    rcases List.mem_append.mp mem with new | old
    · exact ⟨item, ofItem, inside key new⟩
    · exact within key old
  have selectedKnown : ∀ item ∈ selected, learned item rows := fun item mem =>
    (each item mem).1
  have selectedLocked (extra : List Key)
      : ∀ item ∈ selected, ∀ key ∈ keys item, key ∈ extra ++ more := fun item mem key inside =>
    List.mem_append_right extra ((each item mem).2 key inside)
  have skipped : selected.Sublist (done ++ [item]) :=
    sub.trans (List.sublist_append_left done [item])
  unfold selectRow
  by_cases room : selected.length < limit
  · simp only [room, if_true]
    refine tryLocks_rule ((wide []).and (known (selectedLocked []))) ⟨here, selectedKnown⟩ ?_ ?_
    · intro rows extra here all inside
      simp only [if_true]
      refine look_rule ((wide extra).and (known (selectedLocked extra))) here (fun rows here => ?_)
      by_cases passes : condition (store.view rows changes) item = true
      · simp only [passes, if_true]
        refine finish (sub.append (List.Sublist.refl [item])) ?_ inside
          ⟨here.1, ?_⟩ ?_
        · rw [List.length_append, List.length_singleton]
          exact room
        · intro other mem
          rcases List.mem_append.mp mem with old | new
          · exact here.2 other old
          · rw [List.mem_singleton.mp new]
            exact learns item ofItem rows here.1 passes
        · intro other mem key wanted
          rcases List.mem_append.mp mem with old | new
          · exact selectedLocked extra other old key wanted
          · rw [List.mem_singleton.mp new] at wanted
            exact List.mem_append_left more (all key wanted)
      · simp only [passes, Bool.false_eq_true, if_false]
        exact finish skipped bound inside here (selectedLocked extra)
    · intro rows extra here inside
      simp only [Bool.false_eq_true, if_false]
      exact finish skipped bound inside here (selectedLocked extra)
  · simp only [room, if_false]
    exact finish skipped bound (by simp) ⟨here, selectedKnown⟩ (selectedLocked [])

variable (learned) in
/-- `SELECT ... FOR UPDATE SKIP LOCKED LIMIT` hands out rows of the snapshot, in order and within
the limit, each with its locks and with what its condition taught.
-/
theorem select_rule {next : List Item → Txn Answer} (stable : Stable (Rely exact) locks fact)
    (holds : fact database)
    (learns
      : ∀ item ∈ items, ∀ rows,
          fact rows → condition (store.view rows changes) item = true → learned item rows)
    (continues
      : ∀ selected more rows,
          fact rows
          → selected.Sublist items
          → selected.length ≤ limit
          → (∀ item ∈ selected, learned item rows ∧ ∀ key ∈ keys item, key ∈ more)
          → (∀ key ∈ more, ∃ item ∈ items, key ∈ keys item)
          → (next selected).Ensures (ledgerSetting config exact verb began) post
              ⟨rows, more ++ locks, changes⟩)
    : (selectForUpdate keys condition limit items >>= next).Ensures
        (ledgerSetting config exact verb began) post ⟨database, locks, changes⟩ := by
  refine (Program.Ensures.fold (Selecting keys limit items learned fact locks changes)
    (Selecting.interfere stableItem stable)
    (selectRow_ensures stableItem stable learns)
    ⟨[], [], database, rfl, rfl, holds, List.Sublist.refl [], Nat.zero_le limit, by simp,
      by simp⟩).bind ?_
  rintro selected place ⟨done, more, rows, rfl, split, here, sub, bound, each, within⟩
  rw [List.append_nil] at split
  exact continues selected more rows here (split ▸ sub) bound each within

end Select

end Statements

end Ledger
