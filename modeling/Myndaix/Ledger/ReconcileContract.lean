import Myndaix.Ledger.ReclaimContract

/-! The contract of `reconcile_repo_concurrency`. It locks every counter that it finds first;
counters that appear later are locked out of order, and are the only ones that are.
-/

namespace Ledger

open Interaction Relational Transactions

variable {config : Config} {exact : Prop} {began : Database} {now : Time} {Answer : Type}
  {post : Answer → Place Database Key Change → Prop}

/-- A counter that existed when the transaction began still exists. -/
def Lasting (began rows : Database) : Prop :=
  ∀ repo, (began.repo? repo).isSome = true → (rows.repo? repo).isSome = true

theorem Stable.lasting {held : List Key} : Stable (Rely exact) held (Lasting began) :=
  Stable.all fun _ => Stable.given fun _ => Stable.repo

/-- A counter that is locked, or that its repository has by now. -/
def Known (held : List Key) (rows : Database) (repo : String) : Prop :=
  Key.repo repo ∈ held ∨ (rows.repo? repo).isSome = true

variable {repo : String}

theorem Known.moved {held : List Key} {rows later : Database} (known : Known held rows repo)
    (moved : Rely exact held rows later)
    : Known held later repo :=
  known.imp_right (fun present => Stable.repo moved present)

theorem Known.wider {held more : List Key} {rows : Database} (known : Known held rows repo)
    (within : ∀ key ∈ held, key ∈ more)
    : Known more rows repo :=
  known.imp_left (within _)

/-- The counters that the transaction has added or locked so far, on top of the healed orphans.
-/
structure Recounting (began : Database) (orphans : List (Attempt × Job)) (held : List Key)
    (counts : List Change) (rows : Database)
    : Prop where
  healed : Healed orphans rows
  counters : ∀ change ∈ counts, change.counts = true
  guarded : ∀ change ∈ counts, ∀ key ∈ change.keys, key ∈ held
  nodup : (counts.filterMap Change.seeds).Nodup
  fresh
    : ∀ repo, repo ∈ counts.filterMap Change.seeds
        → Key.repo repo ∈ held ∧ (Key.repo repo).present rows = false
  locked : ∀ repo, (began.repo? repo).isSome = true → Key.repo repo ∈ held

namespace Recounting

variable {orphans : List (Attempt × Job)} {held : List Key} {counts : List Change}
  {rows later : Database} (recounting : Recounting began orphans held counts rows)

include recounting

theorem moved (lockedOrphans : ∀ row ∈ orphans, Key.attempt row.1.id ∈ held)
    (moved : Rely exact held rows later)
    : Recounting began orphans held counts later where
  healed := Stable.healed lockedOrphans moved recounting.healed
  counters := recounting.counters
  guarded := recounting.guarded
  nodup := recounting.nodup
  fresh repo seeded :=
    ⟨(recounting.fresh repo seeded).1,
      Stable.absent (recounting.fresh repo seeded).1 moved (recounting.fresh repo seeded).2⟩
  locked := recounting.locked

theorem wider {more : List Key} (within : ∀ key ∈ held, key ∈ more)
    : Recounting began orphans more counts rows where
  healed := recounting.healed
  counters := recounting.counters
  guarded change mem key inside := within key (recounting.guarded change mem key inside)
  nodup := recounting.nodup
  fresh repo seeded := ⟨within _ (recounting.fresh repo seeded).1, (recounting.fresh repo seeded).2⟩
  locked repo present := within _ (recounting.locked repo present)

/-- A counter is locked already, or has come up since the transaction began. -/
theorem orderly (known : Known held rows repo)
    : Orderly config (.reconcileRepoConcurrency now) began rows held (.repo repo) := by
  rcases known with locked | present
  · exact Or.inl locked
  · cases found : began.repo? repo with
    | none => exact Or.inr (Or.inr ⟨rfl, repo, rfl, found, present⟩)
    | some row => exact Or.inl (recounting.locked repo (by simp [found]))

/-- Repositories with live attempts have counters. -/
theorem live_known {healedAt : Time}
    (mem : repo ∈ liveRepos (store.view rows ([healing orphans healedAt] ++ counts)))
    : Known held rows repo := by
  simp only [liveRepos, List.mem_dedup, reposOf, List.mem_filterMap, List.mem_filter,
    Bool.and_eq_true, decide_eq_true_eq] at mem
  obtain ⟨row, ⟨inside, isOpen, _⟩, own⟩ := mem
  rw [mem_joined, Store.view_append, view_counters recounting.counters, healing,
    Store.view_cons, Store.view_nil, apply_closeAttempts] at inside
  obtain ⟨inside, found⟩ := inside
  obtain ⟨attempt, mem, closed⟩ := List.mem_map.mp inside
  have unmoved : attempt = row.1 := by
    unfold closeAmong at closed
    split at closed
    · rw [← closed] at isOpen
      cases isOpen
    · exact closed
  exact Or.inr (recounting.healed.1.counted row.1 (unmoved ▸ mem) row.2 repo isOpen found own)

/-- Counters that the transaction sees were there or are its own. -/
theorem seen_known {healedAt : Time}
    (mem
      : repo ∈ (store.view rows ([healing orphans healedAt] ++ counts)).repoConcurrency.map
          RepoConcurrency.repoId)
    : Known held rows repo := by
  rw [view_repoIds] at mem
  rcases List.mem_append.mp mem with there | own
  · obtain ⟨row, inside, rfl⟩ := List.mem_map.mp there
    have found : rows.repo? row.repoId = some row :=
      lookup_of_mem recounting.healed.1.uniqueRepo inside
    exact Or.inr (by simp [found])
  · have seeded : repo ∈ counts.filterMap Change.seeds := by
      simpa [List.filterMap_cons, healing, Change.seeds] using own
    exact Or.inl (recounting.fresh repo seeded).1

theorem setActive (locked : Key.repo repo ∈ held) (active : Int)
    : Recounting began orphans held (counts ++ [Change.setActive repo active]) rows where
  healed := recounting.healed
  counters change mem := by
    rcases List.mem_append.mp mem with old | new
    · exact recounting.counters change old
    · rw [List.mem_singleton.mp new]
      rfl
  guarded change mem := by
    rcases List.mem_append.mp mem with old | new
    · exact recounting.guarded change old
    · rw [List.mem_singleton.mp new]
      simpa [Change.keys] using locked
  nodup := by simpa [List.filterMap_cons, Change.seeds] using recounting.nodup
  fresh := by simpa [List.filterMap_cons, Change.seeds] using recounting.fresh
  locked := recounting.locked

theorem insertRepo (active : Int) (healedAt : Time)
    (absent
      : (Key.repo repo).present (store.view rows ([healing orphans healedAt] ++ counts)) = false)
    : Recounting began orphans ([Key.repo repo] ++ held)
        (counts ++ [Change.insertRepo ⟨repo, active⟩])
        rows := by
  have inherited
      : repo ∉ (store.view rows ([healing orphans healedAt] ++ counts)).repoConcurrency.map
        RepoConcurrency.repoId := by
    intro mem
    obtain ⟨row, inside, same⟩ := List.mem_map.mp mem
    simp only [Key.present, Option.isSome_eq_false_iff, Option.isNone_iff_eq_none] at absent
    exact lookup_none.mp absent row inside same
  rw [view_repoIds, List.filterMap_append, List.mem_append, List.mem_append, not_or, not_or]
    at inherited
  obtain ⟨unknown, _, unseeded⟩ := inherited
  have wide : Recounting began orphans ([Key.repo repo] ++ held) counts rows :=
    recounting.wider (fun key mem => List.mem_append_right _ mem)
  exact {
    healed := recounting.healed
    counters := by
      intro change mem
      rcases List.mem_append.mp mem with old | new
      · exact recounting.counters change old
      · rw [List.mem_singleton.mp new]
        rfl
    guarded := by
      intro change mem
      rcases List.mem_append.mp mem with old | new
      · exact wide.guarded change old
      · rw [List.mem_singleton.mp new]
        simp [Change.keys]
    nodup := by
      simp only [List.filterMap_append, List.filterMap_cons, List.filterMap_nil, Change.seeds]
      exact List.nodup_append.mpr ⟨recounting.nodup, List.nodup_singleton _,
        fun other seeded last mem => by
          rw [List.mem_singleton.mp mem]
          exact fun same => unseeded (same ▸ seeded)⟩
    fresh := by
      intro other seeded
      simp only [List.filterMap_append, List.filterMap_cons, List.filterMap_nil, Change.seeds,
        List.mem_append, List.mem_singleton] at seeded
      rcases seeded with old | rfl
      · exact wide.fresh other old
      · refine ⟨by simp, ?_⟩
        simp only [Key.present, Option.isSome_eq_false_iff, Option.isNone_iff_eq_none]
        exact lookup_none.mpr
          (fun row inside same => unknown (List.mem_map.mpr ⟨row, inside, same⟩))
    locked := wide.locked
  }

/-- Recounting commits the healed orphans and whatever the counters became. -/
theorem commit (nodup : (orphans.map (fun row => row.1.id)).Nodup)
    : Commit config exact (.reconcileRepoConcurrency now) held rows
        (store.view rows ([healing orphans now] ++ counts)) := by
  have holds := recounting.healed.1
  have reclaiming : Reclaiming config orphans [] ⟨[], []⟩ rows := {
    consistent := holds
    nodup := by simpa using nodup
    orphan := recounting.healed.2
    expired := by simp
    decided := by simp
    safe := by simp
  }
  have table : store.view rows ([healing orphans now] ++ counts)
      = {
          rows with
          attempts := rows.attempts.map (reclaimAttempt orphans [] now now),
          jobs := rows.jobs.map (reclaimJob ⟨[], []⟩),
          repoConcurrency :=
            (store.view rows ([healing orphans now] ++ counts)).repoConcurrency,
          deadLetters := rows.deadLetters ++ []
        } := by
    have healed : store.view rows [healing orphans now]
        = {
            rows with
            attempts := rows.attempts.map (reclaimAttempt orphans [] now now)
          } := by
      rw [healing, Store.view_cons, Store.view_nil, apply_closeAttempts]
      rfl
    have still : reclaimJob ⟨[], []⟩ = id := by
      funext job
      simp [reclaimJob]
    rw [Store.view_append, view_counters recounting.counters, healed, still]
    simp
  rw [table]
  refine .settle (settles_reclaim reclaiming ?_ (by simp) (fun _ _ => trivial))
  refine view_uniqueRepo holds.uniqueRepo ?_ ?_
  · simpa [List.filterMap_cons, healing, Change.seeds] using recounting.nodup
  · intro repo seeded
    have seeded' : repo ∈ counts.filterMap Change.seeds := by
      simpa [List.filterMap_cons, healing, Change.seeds] using seeded
    simpa [Key.present] using (recounting.fresh repo seeded').2

end Recounting

/-- Every counter is locked, in the order that the database sorts them. -/
theorem lockRepos_rule {orphans : List (Attempt × Job)} {next : Unit → Txn Answer}
    {held : List Key} {rows : Database}
    (lockedOrphans : ∀ row ∈ orphans, Key.attempt row.1.id ∈ held)
    (here : Healed orphans rows ∧ Lasting began rows) (kinds : ∀ key ∈ held, key.kind < 2)
    (continues
      : ∀ more rows,
          Recounting began orphans (more ++ held) [] rows
          → (next ()).Ensures
              (ledgerSetting config exact (.reconcileRepoConcurrency now) began) post
              ⟨rows, more ++ held, [healing orphans now]⟩)
    : (lockRepos config >>= next).Ensures
        (ledgerSetting config exact (.reconcileRepoConcurrency now) began) post
        ⟨rows, held, [healing orphans now]⟩ := by
  have stable (held : List Key) (locked : ∀ row ∈ orphans, Key.attempt row.1.id ∈ held)
      : Stable (Rely exact) held (fun rows => Healed orphans rows ∧ Lasting began rows) :=
    (Stable.healed locked).and Stable.lasting
  simp only [lockRepos, Program.bind_assoc]
  refine look_rule (stable held lockedOrphans) here (fun snapshot atSnapshot => ?_)
  have same : (store.view snapshot [healing orphans now]).repoConcurrency
      = snapshot.repoConcurrency := by
    simp [healing]
  rw [same]
  generalize ordered
    : (snapshot.repoConcurrency.map RepoConcurrency.repoId).insertionSort
        (fun first second => config.collation.le first second = true) = repos
  have perm : repos.Perm (snapshot.repoConcurrency.map RepoConcurrency.repoId) :=
    ordered ▸ List.perm_insertionSort _ _
  have sorted : repos.Pairwise
      (fun first second => config.collation.le first second = true ∧ first ≠ second) := by
    have : Std.Total (fun first second => config.collation.le first second = true) :=
      ⟨fun first second => by simpa using config.collation.total first second⟩
    have : IsTrans String (fun first second => config.collation.le first second = true) :=
      ⟨fun _ _ _ earlier later => config.collation.trans earlier later⟩
    refine List.Pairwise.and ?_ (perm.nodup_iff.mpr atSnapshot.1.1.uniqueRepo)
    exact ordered ▸ List.pairwise_insertionSort _ _
  have present {rows : Database} (lasts : Lasting snapshot rows) {repo : String}
      (mem : repo ∈ repos)
      : (rows.repo? repo).isSome = true := by
    obtain ⟨row, inside, rfl⟩ := List.mem_map.mp (perm.mem_iff.mp mem)
    refine lasts row.repoId ?_
    rw [show snapshot.repo? row.repoId = some row from
      lookup_of_mem atSnapshot.1.1.uniqueRepo inside]
    rfl
  have lockedAt (done : List String) (row : Attempt × Job) (mem : row ∈ orphans)
      : Key.attempt row.1.id ∈ (done.map Key.repo).reverse ++ held :=
    List.mem_append_right _ (lockedOrphans row mem)
  refine fold_rule (fun done => (done.map Key.repo).reverse ++ held)
    (fun _ => [healing orphans now])
    (fun _ _ rows => (Healed orphans rows ∧ Lasting began rows) ∧ Lasting snapshot rows)
    (fun _ done => (stable _ (lockedAt done)).and Stable.lasting) ?_
    ⟨atSnapshot, fun _ present => present⟩ (by simp) rfl ?_
  · intro _ done repo rest rows split here
    rw [split] at sorted
    rw [← Program.bind_done (lock (.repo repo))]
    have stable : Stable (Rely exact) ((done.map Key.repo).reverse ++ held)
        (fun rows => (Healed orphans rows ∧ Lasting began rows) ∧ Lasting snapshot rows) :=
      (stable _ (lockedAt done)).and Stable.lasting
    refine lock_rule stable here ?_ (fun rows here => ?_)
    · intro rows here
      refine Or.inr (Or.inl (fun key mem => ?_))
      rcases List.mem_append.mp mem with new | old
      · obtain ⟨other, inside, rfl⟩ := List.mem_map.mp (List.mem_reverse.mp new)
        exact Or.inr ⟨other, repo, rfl, rfl,
          (List.pairwise_append.mp sorted).2.2 other inside repo List.mem_cons_self,
          present here.2 (by simp [split, inside]), present here.2 (by simp [split])⟩
      · exact Or.inl (kinds key old)
    · refine done_rule (Stable.lock _ stable) here
        (fun rows here => ⟨rows, ?_, here⟩)
      simp
  · intro _ rows here'
    refine continues _ rows ⟨here'.1.1, by simp, by simp, by simp, by simp, ?_⟩
    intro repo present
    obtain ⟨row, found⟩ := Option.isSome_iff_exists.mp (atSnapshot.2 repo present)
    refine List.mem_append_left _ (List.mem_reverse.mpr (List.mem_map_of_mem ?_))
    refine perm.mem_iff.mpr (List.mem_map.mpr ⟨row, lookup_mem found, lookup_key found⟩)

/-- What a transaction that recounts knows, with the counters still to come. -/
structure Recounts (began : Database) (orphans : List (Attempt × Job)) (ahead : List String)
    (held : List Key) (counts : List Change) (rows : Database)
    : Prop where
  locked : ∀ row ∈ orphans, Key.attempt row.1.id ∈ held
  recounting : Recounting began orphans held counts rows
  known : ∀ repo ∈ ahead, Known held rows repo

theorem Recounts.wider {orphans : List (Attempt × Job)} {ahead : List String}
    {held more : List Key} {counts : List Change} {rows : Database}
    (recounts : Recounts began orphans ahead held counts rows)
    (within : ∀ key ∈ held, key ∈ more)
    : Recounts began orphans ahead more counts rows where
  locked row mem := within _ (recounts.locked row mem)
  recounting := recounts.recounting.wider within
  known repo mem := (recounts.known repo mem).wider within

theorem Stable.recounts {orphans : List (Attempt × Job)} {ahead : List String}
    {held : List Key} {counts : List Change}
    : Stable (Rely exact) held (Recounts began orphans ahead held counts) :=
  fun _ _ moved recounts =>
    ⟨recounts.locked, recounts.recounting.moved recounts.locked moved,
      fun repo mem => (recounts.known repo mem).moved moved⟩

/-- The place of a transaction that recounts. -/
def RecountingAt (began : Database) (now : Time) (orphans : List (Attempt × Job))
    (ahead : List String) (place : Place Database Key Change)
    : Prop :=
  ∃ held counts rows,
    place = ⟨rows, held, [healing orphans now] ++ counts⟩
    ∧ Recounts began orphans ahead held counts rows

theorem RecountingAt.interfere {orphans : List (Attempt × Job)} {ahead : List String}
    {place later : Place Database Key Change}
    (recounting : RecountingAt began now orphans ahead place)
    (moved
      : (ledgerSetting config exact (.reconcileRepoConcurrency now) began).interferes place later)
    : RecountingAt began now orphans ahead later := by
  obtain ⟨held, counts, rows, rfl, recounts⟩ := recounting
  obtain ⟨rows', held', changes'⟩ := later
  obtain ⟨sameLocks, sameChanges, moved⟩ := moved
  simp only at sameLocks sameChanges moved
  subst sameLocks sameChanges
  exact ⟨_, counts, rows', rfl, Stable.recounts moved recounts⟩

/-- Writing the true counts keeps recounting. -/
theorem upsertCounts_ensures {orphans : List (Attempt × Job)} {held : List Key}
    {counts' : List Change} {rows : Database}
    (here : Recounts began orphans [] held counts' rows)
    : (upsertCounts config).Ensures
        (ledgerSetting config exact (.reconcileRepoConcurrency now) began)
        (fun _ => RecountingAt began now orphans [])
        ⟨rows, held, [healing orphans now] ++ counts'⟩ := by
  refine look_rule Stable.recounts here (fun snapshot here => ?_)
  have starts : Recounts began orphans
      (config.groups (liveRepos (store.view snapshot ([healing orphans now] ++ counts')))) held
      counts' snapshot :=
    ⟨here.locked, here.recounting, fun repo mem =>
      here.recounting.live_known ((config.groups_perm _).mem_iff.mp mem)⟩
  refine (Program.Ensures.fold (fun _ => RecountingAt began now orphans)
    RecountingAt.interfere ?_ ⟨held, counts', snapshot, rfl, starts⟩).bind ?_
  · rintro _ repo rest _ ⟨held, counts, rows, rfl, here⟩
    have orderly {rows : Database} (here : Recounts began orphans (repo :: rest) held counts rows)
        : Orderly config (.reconcileRepoConcurrency now) began rows held (.repo repo) :=
      here.recounting.orderly (here.known repo List.mem_cons_self)
    have stable : Stable (Rely exact) held (Recounts began orphans (repo :: rest) held counts) :=
      Stable.recounts
    have widened {rows : Database} (here : Recounts began orphans (repo :: rest) held counts rows)
        : Recounts began orphans rest ([Key.repo repo] ++ held) counts rows :=
      have wide := here.wider (fun _ mem => List.mem_append_right [Key.repo repo] mem)
      ⟨wide.locked, wide.recounting,
        fun other mem => wide.known other (List.mem_cons_of_mem _ mem)⟩
    refine insert_rule stable here ?_ (by simp [Change.keys]) (by simp) ?_ ?_
    · intro rows here key mem
      rw [List.mem_singleton.mp mem]
      exact orderly here
    · intro rows here absent
      have added := here.recounting.insertRepo
        ((store.view snapshot ([healing orphans now] ++ counts')).openNow repo) now
        (absent _ (List.mem_singleton_self _))
      have wide := widened here
      refine done_rule Stable.recounts ⟨wide.locked, added, wide.known⟩ (fun rows here => ?_)
      exact ⟨_, _, rows, by simp, here⟩
    · intro rows key here mem _
      refine lock_rule stable here (fun rows here => orderly here) (fun rows here => ?_)
      have wide := widened here
      rw [← Program.bind_done (write _)]
      refine write_rule Stable.recounts wide (by simp [Change.keys])
        (fun _ _ => noFloor_of_other (by simp)) (fun rows here => ?_)
      refine done_rule Stable.recounts
        ⟨here.locked, here.recounting.setActive List.mem_cons_self
          ((store.view snapshot ([healing orphans now] ++ counts')).openNow repo), here.known⟩
        (fun rows here => ?_)
      exact ⟨_, _, rows, by simp, here⟩
  · rintro _ _ ⟨held, counts, rows, rfl, here⟩
    exact done_rule Stable.recounts here (fun rows here => ⟨held, counts, rows, rfl, here⟩)

/-- So does zeroing the rest. -/
theorem zeroCounts_ensures {orphans : List (Attempt × Job)} {held : List Key}
    {counts : List Change} {rows : Database}
    (here : Recounts began orphans [] held counts rows)
    : (zeroCounts config).Ensures
        (ledgerSetting config exact (.reconcileRepoConcurrency now) began)
        (fun _ => RecountingAt began now orphans [])
        ⟨rows, held, [healing orphans now] ++ counts⟩ := by
  refine look_rule Stable.recounts here (fun snapshot here => ?_)
  refine Program.Ensures.fold (fun _ => RecountingAt began now orphans)
    RecountingAt.interfere ?_
    ⟨held, counts, snapshot, rfl, here.locked, here.recounting, fun repo mem => ?_⟩
  · rintro _ repo rest _ ⟨held, counts, rows, rfl, here⟩
    have stable : Stable (Rely exact) held (Recounts began orphans (repo :: rest) held counts) :=
      Stable.recounts
    have narrowed {held : List Key} {rows : Database}
        (here : Recounts began orphans (repo :: rest) held counts rows)
        : Recounts began orphans rest held counts rows :=
      ⟨here.locked, here.recounting,
        fun other mem => here.known other (List.mem_cons_of_mem _ mem)⟩
    have widened {rows : Database} (here : Recounts began orphans (repo :: rest) held counts rows)
        : Recounts began orphans rest (.repo repo :: held) counts rows :=
      narrowed (here.wider (fun key mem => List.mem_cons_of_mem _ mem))
    refine updateFrom_rule stable here
      (fun _ rows here => here.recounting.orderly (here.known repo List.mem_cons_self))
      (fun _ rows here _ => widened here) Stable.recounts (by simp [Change.keys])
      (fun _ _ => noFloor_of_other (by simp)) ?_ ?_ ?_
    · intro rows here
      refine done_rule Stable.recounts
        ⟨here.locked, here.recounting.setActive List.mem_cons_self 0, here.known⟩
        (fun rows here => ?_)
      exact ⟨_, _, rows, by simp, here⟩
    · intro _ rows here _
      exact done_rule Stable.recounts (widened here)
        (fun rows here => ⟨_, counts, rows, rfl, here⟩)
    · intro _ rows here
      exact done_rule Stable.recounts (narrowed here)
        (fun rows here => ⟨_, counts, rows, rfl, here⟩)
  · have listed := (config.groups_perm _).mem_iff.mp mem
    exact here.recounting.seen_known (List.mem_filter.mp listed).1

/-- `reconcile_repo_concurrency` closes orphans and otherwise changes counters only. -/
theorem reconcileRepoConcurrency_keeps (now : Time)
    : Keeps config exact (.reconcileRepoConcurrency now) := by
  intro began holds
  have lasting : Lasting began began := fun _ present => present
  simp only [code, reconcileRepoConcurrency, Program.bind_assoc]
  refine closeOrphans_rule (fun rows => List.perm_insertionSort _ rows)
    (fun _ => Stable.consistent.and Stable.lasting) (fun _ here => here.1) ⟨holds, lasting⟩
    (fun orphans first rows here nodup orphan kinds => ?_)
  refine lockRepos_rule (fun row mem => (orphan row mem).2)
    ⟨⟨here.1, fun row mem => (orphan row mem).1⟩, here.2⟩ ?_ (fun more rows here => ?_)
  · intro key mem
    rw [kinds key mem]
    exact Nat.zero_lt_two
  have locked : ∀ row ∈ orphans, Key.attempt row.1.id ∈ more ++ first :=
    fun row mem => List.mem_append_right more (orphan row mem).2
  refine (upsertCounts_ensures ⟨locked, here, by simp⟩).bind ?_
  rintro healed _ ⟨held, counts, rows, rfl, here⟩
  refine (zeroCounts_ensures here).bind ?_
  rintro _ _ ⟨held, counts, rows, rfl, here⟩
  exact done_rule Stable.recounts here
    (fun rows here => ⟨here.recounting.commit nodup, by simp [Verb.fences]⟩)

end Ledger
