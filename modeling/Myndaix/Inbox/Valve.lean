import Myndaix.Inbox.Tick

/-! The held-batch valve: a batch that the classifier keeps failing on is held for a bounded number
of ticks, then its cursor moves past it and the brief says so.
-/

namespace Inbox

open Text

-- Pulls

section Pulls

variable {account other : Str} {mailbox : Mailbox} {accounts : List (Str × Mailbox)}
  {cursors : Cursors}

theorem getCursor_markPullError_other {state : CursorState} {cursorRead rowExisted : Bool}
    {prevHistoryId : Option Str} (different : other ≠ account)
    : inboxGetCursor other
        (markPullError account state cursorRead rowExisted prevHistoryId cursors)
      = inboxGetCursor other cursors := by
  unfold markPullError
  split
  · exact getCursor_mark_other different
  · exact getCursor_mark_other different

theorem pullAccount_account : (pullAccount account mailbox cursors).1.account = account := by
  unfold pullAccount
  cases mailbox.identity with
  | error failure => rfl
  | ok same =>
      cases same with
      | false => rfl
      | true =>
          dsimp only
          cases mailbox.pull (history (inboxGetCursor account cursors)) <;> rfl

theorem pullAccount_other (different : other ≠ account)
    : inboxGetCursor other (pullAccount account mailbox cursors).2
      = inboxGetCursor other cursors := by
  unfold pullAccount
  cases mailbox.identity with
  | error failure =>
      dsimp only
      exact getCursor_markPullError_other different
  | ok same =>
      cases same with
      | false =>
          dsimp only
          exact getCursor_mark_other different
      | true =>
          dsimp only
          cases mailbox.pull (history (inboxGetCursor account cursors)) with
          | error failure => exact getCursor_markPullError_other different
          | ok result => rfl

/-- A pull that is fine writes nothing, and expects what it has read. -/
theorem pullAccount_ok (ok : (pullAccount account mailbox cursors).1.ok = true)
    : (pullAccount account mailbox cursors).2 = cursors
      ∧ (pullAccount account mailbox cursors).1.prevHistoryId
        = history (inboxGetCursor account cursors)
      ∧ mailbox.pull (history (inboxGetCursor account cursors))
        = .ok
            {
              threads := (pullAccount account mailbox cursors).1.threads
              newHistoryId := (pullAccount account mailbox cursors).1.newHistoryId
            } := by
  unfold pullAccount at ok ⊢
  cases identity : mailbox.identity with
  | error failure =>
      rw [identity] at ok
      cases ok
  | ok same =>
      rw [identity] at ok
      cases same with
      | false => cases ok
      | true =>
          dsimp only at ok ⊢
          cases pulled : mailbox.pull (history (inboxGetCursor account cursors)) with
          | error failure =>
              rw [pulled] at ok
              cases ok
          | ok result => exact ⟨rfl, rfl, rfl⟩

theorem pullAccounts_cons (rest : List (Str × Mailbox))
    : pullAccounts ((account, mailbox) :: rest) cursors
      = ((pullAccount account mailbox cursors).1
            :: (pullAccounts rest (pullAccount account mailbox cursors).2).1,
          (pullAccounts rest (pullAccount account mailbox cursors).2).2) :=
  rfl

/-- An account whose pulls are all fine finds its row as it was, by induction on the accounts. -/
theorem pullAccounts_ok
    (ok : ∀ run ∈ (pullAccounts accounts cursors).1, run.account = account → run.ok = true)
    : inboxGetCursor account (pullAccounts accounts cursors).2 = inboxGetCursor account cursors
      ∧ ∀ run ∈ (pullAccounts accounts cursors).1,
          run.account = account → run.prevHistoryId = history (inboxGetCursor account cursors) := by
  induction accounts generalizing cursors with
  | nil => exact ⟨rfl, fun run mem => absurd mem List.not_mem_nil⟩
  | cons entry rest ih =>
      obtain ⟨name, mailbox⟩ := entry
      rw [pullAccounts_cons] at ok ⊢
      have first := ok _ List.mem_cons_self
      obtain ⟨kept, expects⟩ := ih fun run mem => ok run (List.mem_cons_of_mem _ mem)
      rw [pullAccount_account] at first
      by_cases own : name = account
      · subst own
        obtain ⟨same, expected, _⟩ := pullAccount_ok (first rfl)
        rw [same] at kept expects
        refine ⟨by rw [same]; exact kept, fun run mem isOwn => ?_⟩
        rcases List.mem_cons.mp mem with rfl | later
        · exact expected
        · rw [same] at later
          exact expects run later isOwn
      · have same := @pullAccount_other name account mailbox cursors (Ne.symm own)
        rw [same] at kept expects
        refine ⟨kept, fun run mem isOwn => ?_⟩
        rcases List.mem_cons.mp mem with rfl | later
        · exact absurd (pullAccount_account.symm.trans isOwn) own
        · exact expects run later isOwn

/-- A run that is fine carries the history id that Gmail has answered. -/
theorem pullAccounts_answered {run : AccountRun} (mem : run ∈ (pullAccounts accounts cursors).1)
    (ok : run.ok = true)
    : ∃ entry ∈ accounts,
        ∃ cursor,
          entry.2.pull cursor
            = .ok { threads := run.threads, newHistoryId := run.newHistoryId } := by
  induction accounts generalizing cursors with
  | nil => cases mem
  | cons entry rest ih =>
      rw [pullAccounts_cons] at mem
      rcases List.mem_cons.mp mem with rfl | later
      · exact ⟨entry, List.mem_cons_self, _, (pullAccount_ok ok).2.2⟩
      · obtain ⟨found, among, answered⟩ := ih later
        exact ⟨found, List.mem_cons_of_mem _ among, answered⟩

end Pulls

-- Actions

/-- What a run has pulled, whatever became of its actions. -/
def AccountRun.pulled (run : AccountRun) : AccountRun :=
  { run with actionFailed := false }

section Actions

variable {unicode : Unicode} {account : Str} {runs : List AccountRun} {items : List BoardItem}
  {answers : Nat → DraftAnswers} {budget place : Nat} {item : BoardItem}

theorem map_pulled_failAction
    : (failAction account runs).map AccountRun.pulled = runs.map AccountRun.pulled := by
  induction runs with
  | nil => rfl
  | cons run rest ih =>
      rw [failAction]
      split
      · rfl
      · rw [List.map_cons, List.map_cons, ih]

theorem map_pulled_applyLabels {labelled : Str → Category → Bool}
    : (applyLabels labelled items runs).map AccountRun.pulled = runs.map AccountRun.pulled := by
  unfold applyLabels
  dsimp only
  generalize (List.dedup _ : List (Str × Category)) = grouped
  induction grouped generalizing runs with
  | nil => rfl
  | cons group rest ih =>
      rw [List.foldl_cons, ih]
      split
      · rfl
      · split
        · exact map_pulled_failAction
        · rfl

/-- Drafts change no run but for its failed actions, and no item that earns no draft. -/
theorem createDrafts_keeps
    : (createDrafts unicode answers budget place items runs).2.map AccountRun.pulled
        = runs.map AccountRun.pulled
      ∧ ∀ item ∈ items,
          item.category ∉ DRAFT_CATEGORIES
          → item ∈ (createDrafts unicode answers budget place items runs).1 := by
  induction items generalizing budget place runs with
  | nil =>
      unfold createDrafts
      exact ⟨rfl, fun item mem => absurd mem List.not_mem_nil⟩
  | cons first rest ih =>
      have skipped {budget : Nat} {after : List AccountRun}
          (same : after.map AccountRun.pulled = runs.map AccountRun.pulled)
          : (createDrafts unicode answers budget (place + 1) rest after).2.map AccountRun.pulled
              = runs.map AccountRun.pulled
            ∧ ∀ item ∈ first :: rest,
                item.category ∉ DRAFT_CATEGORIES
                → item ∈ first ::
                  (createDrafts unicode answers budget (place + 1) rest after).1 := by
        obtain ⟨kept, stay⟩ := @ih after budget (place + 1)
        refine ⟨kept.trans same, fun item mem undrafted => ?_⟩
        rcases List.mem_cons.mp mem with rfl | later
        · exact List.mem_cons_self
        · exact List.mem_cons_of_mem _ (stay item later undrafted)
      unfold createDrafts
      dsimp only
      split
      · exact skipped rfl
      · rename_i earns
        split
        · exact skipped rfl
        · rename_i run found
          split
          · exact skipped rfl
          · split
            · exact ⟨rfl, fun item mem _ => mem⟩
            · split
              · exact skipped rfl
              · exact skipped map_pulled_failAction
              · split
                · exact skipped rfl
                · split
                  · exact skipped map_pulled_failAction
                  · refine ⟨ih.1, fun item mem undrafted => ?_⟩
                    rcases List.mem_cons.mp mem with rfl | later
                    · have drafted : item.category ∈ DRAFT_CATEGORIES := by
                        by_contra absent
                        exact earns (by simp [absent])
                      exact absurd drafted undrafted
                    · exact List.mem_cons_of_mem _ (ih.2 item later undrafted)

end Actions

-- Cursors

section Cursors

variable {account historyId : Str} {runs : List AccountRun} {run : AccountRun} {cursors : Cursors}
  {classifyOk : Bool} {valveAccounts : List Str} {expected : Option Str}

/-- A run whose cursor a delivered tick moves, unless it has moved already. -/
structure Moving (classifyOk : Bool) (valveAccounts : List Str) (run : AccountRun) : Prop where
  ok : run.ok = true
  numbered : run.newHistoryId ≠ []
  free : run.isHeld classifyOk = false ∨ run.account ∈ valveAccounts

/-- A run whose failure a delivered tick counts. -/
structure Marking (classifyOk : Bool) (valveAccounts : List Str) (run : AccountRun) : Prop where
  ok : run.ok = true
  numbered : run.newHistoryId ≠ []
  held : run.isHeld classifyOk = true
  below : run.account ∉ valveAccounts

theorem settle_other (different : account ≠ run.account)
    : inboxGetCursor account (settle classifyOk valveAccounts cursors run)
      = inboxGetCursor account cursors := by
  unfold settle
  split
  · rfl
  · split
    · exact getCursor_advance_other different
    · exact getCursor_mark_other different

theorem Moving.settle (moving : Moving classifyOk valveAccounts run) (cursors : Cursors)
    : inboxGetCursor run.account (settle classifyOk valveAccounts cursors run)
      = advanceRow run.account run.newHistoryId run.prevHistoryId
          (inboxGetCursor run.account cursors) := by
  unfold Inbox.settle
  rw [if_neg (by simp [moving.ok, moving.numbered]), if_pos (by simpa using moving.free)]
  exact getCursor_advance

theorem Marking.settle (marking : Marking classifyOk valveAccounts run) (cursors : Cursors)
    : inboxGetCursor run.account (settle classifyOk valveAccounts cursors run)
      = markRow run.account .error (.bound run.prevHistoryId)
          (inboxGetCursor run.account cursors) := by
  unfold Inbox.settle
  rw [if_neg (by simp [marking.ok, marking.numbered]),
    if_neg (by simp [marking.held, marking.below])]
  exact getCursor_mark

/-- A row that has moved moves no more than to another answer of the same tick. -/
theorem settle_moved
    (moving : ∀ run ∈ runs, run.account = account → Moving classifyOk valveAccounts run)
    (moved : inboxGetCursor account cursors = some (processed account historyId))
    : ∃ final,
        inboxGetCursor account (runs.foldl (settle classifyOk valveAccounts) cursors)
          = some (processed account final)
        ∧ (final = historyId ∨ ∃ run ∈ runs, run.account = account ∧ final = run.newHistoryId) := by
  induction runs generalizing cursors historyId with
  | nil => exact ⟨historyId, moved, .inl rfl⟩
  | cons first rest ih =>
      have later := fun run mem => moving run (List.mem_cons_of_mem _ mem)
      by_cases own : first.account = account
      · subst own
        have settled := (moving first List.mem_cons_self rfl).settle cursors
        rw [moved] at settled
        by_cases same : (processed first.account historyId).historyId = first.prevHistoryId
        · rw [advanceRow, if_pos same] at settled
          obtain ⟨final, isFinal, from_ | ⟨run, mem, isOwn, from_⟩⟩ := ih later settled
          · exact ⟨final, isFinal, .inr ⟨first, List.mem_cons_self, rfl, from_⟩⟩
          · exact ⟨final, isFinal, .inr ⟨run, List.mem_cons_of_mem _ mem, isOwn, from_⟩⟩
        · rw [advanceRow, if_neg same] at settled
          obtain ⟨final, isFinal, from_ | ⟨run, mem, isOwn, from_⟩⟩ := ih later settled
          · exact ⟨final, isFinal, .inl from_⟩
          · exact ⟨final, isFinal, .inr ⟨run, List.mem_cons_of_mem _ mem, isOwn, from_⟩⟩
      · have kept
            : inboxGetCursor account (Inbox.settle classifyOk valveAccounts cursors first) = _ :=
          (settle_other (Ne.symm own)).trans moved
        obtain ⟨final, isFinal, from_ | ⟨run, mem, isOwn, from_⟩⟩ := ih later kept
        · exact ⟨final, isFinal, .inl from_⟩
        · exact ⟨final, isFinal, .inr ⟨run, List.mem_cons_of_mem _ mem, isOwn, from_⟩⟩

/-- Runs that move their account's cursor leave it at one of their answers, by induction on the
runs.
-/
theorem settle_moving
    (moving : ∀ run ∈ runs, run.account = account → Moving classifyOk valveAccounts run)
    (expects
      : ∀ run ∈ runs,
          run.account = account → run.prevHistoryId = history (inboxGetCursor account cursors))
    (listed : ∃ run ∈ runs, run.account = account)
    : ∃ run ∈ runs,
        run.account = account
        ∧ inboxGetCursor account (runs.foldl (settle classifyOk valveAccounts) cursors)
          = some (processed account run.newHistoryId) := by
  induction runs generalizing cursors with
  | nil =>
      obtain ⟨run, mem, _⟩ := listed
      cases mem
  | cons first rest ih =>
      have later := fun run mem => moving run (List.mem_cons_of_mem _ mem)
      by_cases own : first.account = account
      · subst own
        have settled := (moving first List.mem_cons_self rfl).settle cursors
        rw [expects first List.mem_cons_self rfl, advanceRow_history] at settled
        obtain ⟨final, isFinal, rfl | ⟨run, mem, isOwn, rfl⟩⟩ := settle_moved later settled
        · exact ⟨first, List.mem_cons_self, rfl, isFinal⟩
        · exact ⟨run, List.mem_cons_of_mem _ mem, isOwn, isFinal⟩
      · have kept : inboxGetCursor account (settle classifyOk valveAccounts cursors first) = _ :=
          settle_other (Ne.symm own)
        have expects'
            : ∀ run ∈ rest,
                run.account = account
                → run.prevHistoryId
                  = history
                      (inboxGetCursor account (settle classifyOk valveAccounts cursors first)) := by
          intro run mem isOwn
          rw [kept]
          exact expects run (List.mem_cons_of_mem _ mem) isOwn
        obtain ⟨run, mem, isOwn⟩ := listed
        rcases List.mem_cons.mp mem with rfl | mem
        · exact absurd isOwn own
        · obtain ⟨run, mem, isOwn, isFinal⟩ := ih later expects' ⟨run, mem, isOwn⟩
          exact ⟨run, List.mem_cons_of_mem _ mem, isOwn, isFinal⟩

/-- Runs that are held count one failure each and keep the history, by induction on the runs. -/
theorem settle_marking
    (marking : ∀ run ∈ runs, run.account = account → Marking classifyOk valveAccounts run)
    (expects : ∀ run ∈ runs, run.account = account → run.prevHistoryId = expected)
    (holds : history (inboxGetCursor account cursors) = expected)
    : history (inboxGetCursor account (runs.foldl (settle classifyOk valveAccounts) cursors))
        = expected
      ∧ failures (inboxGetCursor account cursors)
          + runs.countP (fun run => decide (run.account = account))
        ≤ failures
            (inboxGetCursor account (runs.foldl (settle classifyOk valveAccounts) cursors)) := by
  induction runs generalizing cursors with
  | nil => exact ⟨holds, Nat.le_refl _⟩
  | cons first rest ih =>
      have later := fun run mem => marking run (List.mem_cons_of_mem _ mem)
      have expects' := fun run mem => expects run (List.mem_cons_of_mem _ mem)
      rw [List.foldl_cons, List.countP_cons]
      by_cases own : first.account = account
      · subst own
        have settled := (marking first List.mem_cons_self rfl).settle cursors
        obtain ⟨marked, isMarked, kept, counted⟩ :=
          @markRow_history first.account .error (inboxGetCursor first.account cursors)
        rw [expects first List.mem_cons_self rfl, ← holds, isMarked] at settled
        have kept' : history (inboxGetCursor first.account
            (Inbox.settle classifyOk valveAccounts cursors first)) = expected := by
          rw [settled]
          exact kept.trans holds
        obtain ⟨held, more⟩ := ih later expects' kept'
        refine ⟨held, ?_⟩
        rw [settled, failures, Option.elim_some, counted] at more
        rw [if_pos (decide_eq_true rfl)]
        omega
      · have kept
            : inboxGetCursor account (Inbox.settle classifyOk valveAccounts cursors first) = _ :=
          settle_other (Ne.symm own)
        have held := ih later expects' (kept ▸ holds)
        rw [kept] at held
        rw [if_neg (by simpa using own)]
        exact held

theorem mem_valveAttempts {count : Nat}
    : (account, count) ∈ valveAttempts runs classifyOk cursors
      ↔ ∃ run ∈ runs,
          run.isHeld classifyOk = true
          ∧ run.account = account
          ∧ ∃ cursor,
              inboxGetCursor account cursors = some cursor
              ∧ cursor.historyId = run.prevHistoryId
              ∧ cursor.attempts = count := by
  unfold valveAttempts
  rw [List.mem_filterMap]
  constructor
  · rintro ⟨run, mem, found⟩
    obtain ⟨inside, held⟩ := List.mem_filter.mp mem
    split at found
    · cases found
    · rename_i cursor isCursor
      split at found
      · rename_i owns
        cases found
        exact ⟨run, inside, held, rfl, cursor, isCursor, owns, rfl⟩
      · cases found
  · rintro ⟨run, mem, held, rfl, cursor, isCursor, owns, rfl⟩
    refine ⟨run, List.mem_filter.mpr ⟨mem, held⟩, ?_⟩
    rw [isCursor]
    exact if_pos owns

theorem mem_limited {attempts : List (Str × Nat)}
    : account ∈ limited attempts
      ↔ ∃ count, (account, count) ∈ attempts ∧ CLASSIFY_HOLD_MAX ≤ count + 1 := by
  unfold limited
  rw [List.mem_dedup, List.mem_map]
  constructor
  · rintro ⟨⟨name, count⟩, mem, rfl⟩
    obtain ⟨inside, atLimit⟩ := List.mem_filter.mp mem
    exact ⟨count, inside, of_decide_eq_true atLimit⟩
  · rintro ⟨count, inside, atLimit⟩
    exact ⟨(account, count), List.mem_filter.mpr ⟨inside, decide_eq_true atLimit⟩, rfl⟩

/-- The valve opens for an account whose held runs own the row once its count is one below the
limit.
-/
theorem mem_limited_held
    (held : ∀ run ∈ runs, run.account = account → run.isHeld classifyOk = true)
    (expects
      : ∀ run ∈ runs,
          run.account = account → run.prevHistoryId = history (inboxGetCursor account cursors))
    (listed : ∃ run ∈ runs, run.account = account)
    : account ∈ limited (valveAttempts runs classifyOk cursors)
      ↔ CLASSIFY_HOLD_MAX ≤ failures (inboxGetCursor account cursors) + 1 := by
  rw [mem_limited]
  constructor
  · rintro ⟨count, mem, atLimit⟩
    obtain ⟨run, _, _, _, cursor, found, _, rfl⟩ := mem_valveAttempts.mp mem
    rw [found]
    exact atLimit
  · intro atLimit
    obtain ⟨run, mem, own⟩ := listed
    cases found : inboxGetCursor account cursors with
    | none =>
        rw [found] at atLimit
        exact absurd atLimit (by decide)
    | some cursor =>
        have owns := expects run mem own
        rw [found] at owns atLimit
        exact ⟨cursor.attempts,
          mem_valveAttempts.mpr
            ⟨run, mem, held run mem own, own, cursor, found, owns.symm, rfl⟩,
          atLimit⟩

end Cursors

-- The brief

section Briefs

variable {unicode : Unicode} {nonce date line : Str} {runs : List AccountRun}
  {items : List BoardItem} {item : BoardItem} {classifyOk : Bool} {valveAccounts : List Str}
  {threads chunk : List ThreadSummary} {thread : ThreadSummary} {answers : Nat → Classification}
  {i : Nat}

/-- A thread of a chunk without an answer is listed unclassified. -/
theorem classify_unanswered
    (mem : (chunk, i) ∈ (classifyChunks unicode threads nonce).zipIdx)
    (unanswered : answers i = none) (among : thread ∈ chunk)
    : BoardItem.plain thread .unclassified [] ∈ (classify unicode nonce answers threads).1 := by
  refine List.mem_append_right _ (List.mem_flatMap.mpr ⟨(chunk, i), mem, ?_⟩)
  dsimp only
  rw [unanswered]
  exact List.mem_map_of_mem among

theorem mem_section {title : String} {lines : List Str} (mem : line ∈ lines)
    : line ∈ section_ title lines := by
  unfold section_
  rw [if_neg (by simpa using List.ne_nil_of_mem mem)]
  exact List.mem_append_right _ mem

theorem notice_mem
    : classifierNotice valveAccounts
      ∈ briefLines unicode date runs items false valveAccounts := by
  unfold briefLines
  simp only [List.mem_append]
  exact .inl (.inl (.inl (.inl (.inl (.inl (.inl (.inr (by simp))))))))

theorem unclassified_mem (mem : item ∈ items) (unclassified : item.category = .unclassified)
    : itemLine unicode item ∈ briefLines unicode date runs items classifyOk valveAccounts := by
  have listed
      : itemLine unicode item
        ∈ (items.filter (fun item => decide (item.category = .unclassified))).map
            (itemLine unicode) :=
    List.mem_map_of_mem (List.mem_filter.mpr ⟨mem, decide_eq_true unclassified⟩)
  unfold briefLines
  simp only [List.mem_append]
  exact .inl (.inr (mem_section listed))

/-- A line of the brief stands on the board as a line. -/
theorem line_on_board
    (mem : line ∈ briefLines unicode date runs items classifyOk valveAccounts)
    : line ++ ['\n'] <:+: assembleBrief unicode date runs items classifyOk valveAccounts := by
  unfold assembleBrief
  generalize briefLines unicode date runs items classifyOk valveAccounts = lines at mem
  induction lines with
  | nil => cases mem
  | cons first rest ih =>
      cases rest with
      | nil =>
          rw [List.mem_singleton.mp mem, List.intercalate_singleton]
      | cons second rest =>
          rw [List.intercalate_cons_cons]
          rcases List.mem_cons.mp mem with rfl | later
          · refine ⟨[], ['\n'].intercalate (second :: rest) ++ ['\n'], ?_⟩
            simp only [List.nil_append, List.append_assoc]
          · rw [List.append_assoc]
            exact (ih later).trans (List.suffix_append _ _).isInfix

end Briefs

-- A tick

section Ticks

variable (unicode : Unicode) (account : Str) (visit : Visit) (cursors : Cursors)

/-- Gmail's history ids are numbers: none is empty. -/
def Visit.Numbered : Prop :=
  ∀ entry ∈ visit.accounts,
    ∀ cursor result, entry.2.pull cursor = .ok result → result.newHistoryId ≠ []

/-- A delivered tick in which the account is pulled. -/
structure Pulls (report : Report) : Prop where
  listed : ∃ run ∈ report.runs, run.account = account
  pulled : ∀ run ∈ report.runs, run.account = account → run.ok = true
  delivered : visit.delivered = true

/-- The account's cursor moves past the batch, and the brief that was delivered says so and lists
the threads of every chunk that the classifier failed on.
-/
structure Advances (report : Report) : Prop where
  moved
    : ∃ run ∈ report.runs,
        run.account = account
        ∧ inboxGetCursor account report.cursors = some (processed account run.newHistoryId)
  announced : account ∈ report.valveAccounts
  noticed : classifierNotice report.valveAccounts ++ ['\n'] <:+: report.board
  listed
    : ∀ chunk i,
        (chunk, i) ∈ (classifyChunks unicode (allThreads report.runs) visit.nonce).zipIdx
        → visit.answers i = none
        → ∀ thread ∈ chunk,
            itemLine unicode (.plain thread .unclassified []) ++ ['\n'] <:+: report.board

variable {unicode account visit cursors} {run : AccountRun}

theorem tick_runs
    : (tick unicode visit cursors).runs.map AccountRun.pulled
      = (pullAll visit cursors).1.map AccountRun.pulled :=
  createDrafts_keeps.1.trans map_pulled_applyLabels

/-- The run of a report as it was when it had been pulled. -/
theorem tick_pulled (mem : run ∈ (tick unicode visit cursors).runs)
    : ∃ earlier ∈ (pullAll visit cursors).1, earlier.pulled = run.pulled := by
  have inside := List.mem_map_of_mem (f := AccountRun.pulled) mem
  rw [tick_runs] at inside
  exact List.mem_map.mp inside

theorem pulled_tick (mem : run ∈ (pullAll visit cursors).1)
    : ∃ later ∈ (tick unicode visit cursors).runs, later.pulled = run.pulled := by
  have inside := List.mem_map_of_mem (f := AccountRun.pulled) mem
  rw [← @tick_runs unicode] at inside
  exact List.mem_map.mp inside

theorem allThreads_pulled (runs : List AccountRun)
    : allThreads (runs.map AccountRun.pulled) = allThreads runs := by
  unfold allThreads
  rw [List.filter_map, List.flatMap_map]
  rfl

theorem tick_threads
    : allThreads (tick unicode visit cursors).runs = allThreads (pullAll visit cursors).1 := by
  rw [← allThreads_pulled, tick_runs, allThreads_pulled]

/-- An account that is pulled finds its row as it was, and its runs expect what the row holds. -/
theorem Pulls.kept (pulls : Pulls account visit (tick unicode visit cursors))
    : inboxGetCursor account (pullAll visit cursors).2 = inboxGetCursor account cursors
      ∧ ∀ run ∈ (tick unicode visit cursors).runs,
          run.account = account → run.prevHistoryId = history (inboxGetCursor account cursors) := by
  have ok : ∀ run ∈ (pullAll visit cursors).1, run.account = account → run.ok = true := by
    intro run mem own
    obtain ⟨later, inside, same⟩ := @pulled_tick unicode visit cursors run mem
    have okLater := pulls.pulled later inside ((congrArg AccountRun.account same).trans own)
    exact (congrArg AccountRun.ok same).symm.trans okLater
  have facts
      : inboxGetCursor account (pullAll visit cursors).2 = inboxGetCursor account cursors
        ∧ ∀ run ∈ (pullAll visit cursors).1,
            run.account = account
            → run.prevHistoryId = history (inboxGetCursor account cursors) := by
    unfold pullAll at ok ⊢
    by_cases secrets : visit.secrets = true
    · rw [if_pos secrets] at ok ⊢
      exact pullAccounts_ok ok
    · rw [if_neg secrets] at ok ⊢
      refine ⟨rfl, fun run mem own => ?_⟩
      obtain ⟨entry, among, rfl⟩ := List.mem_map.mp mem
      exact nomatch ok _ mem own
  refine ⟨facts.1, fun run mem own => ?_⟩
  obtain ⟨earlier, inside, same⟩ := tick_pulled mem
  have expected := facts.2 earlier inside ((congrArg AccountRun.account same).trans own)
  exact (congrArg AccountRun.prevHistoryId same).symm.trans expected

theorem Visit.Numbered.answered (numbered : visit.Numbered)
    (mem : run ∈ (tick unicode visit cursors).runs) (ok : run.ok = true)
    : run.newHistoryId ≠ [] := by
  obtain ⟨earlier, inside, same⟩ := tick_pulled mem
  have okEarlier : earlier.ok = true := (congrArg AccountRun.ok same).trans ok
  have answered : earlier.newHistoryId ≠ [] := by
    unfold pullAll at inside
    split at inside
    · obtain ⟨entry, among, cursor, answers⟩ := pullAccounts_answered inside okEarlier
      exact numbered entry among cursor _ answers
    · obtain ⟨entry, _, rfl⟩ := List.mem_map.mp inside
      cases okEarlier
  exact congrArg AccountRun.newHistoryId same ▸ answered

theorem tick_cursors (delivered : visit.delivered = true)
    : (tick unicode visit cursors).cursors
      = (tick unicode visit cursors).runs.foldl
          (settle (tick unicode visit cursors).classifyOk
            (tick unicode visit cursors).valveAccounts)
          (pullAll visit cursors).2 := by
  exact if_pos delivered

/-- A delivered tick in which the account is pulled and the classifier fails on a chunk. -/
structure Fails (account : Str) (visit : Visit) (report : Report) : Prop
    extends Pulls account visit report where
  unanswered : report.classifyOk = false

/-- A delivered tick that classifies, and whose labels and drafts for the account are written. -/
structure Clean (account : Str) (visit : Visit) (report : Report) : Prop
    extends Pulls account visit report where
  answered : report.classifyOk = true
  acted : ∀ run ∈ report.runs, run.account = account → run.actionFailed = false

/-- Where the cursor of a pulled account moves, it ends at the answer of one of its runs. -/
theorem Pulls.moves (pulls : Pulls account visit (tick unicode visit cursors))
    (numbered : visit.Numbered)
    (free
      : ∀ run ∈ (tick unicode visit cursors).runs,
          run.account = account
          → run.isHeld (tick unicode visit cursors).classifyOk = false
            ∨ run.account ∈ (tick unicode visit cursors).valveAccounts)
    : ∃ run ∈ (tick unicode visit cursors).runs,
        run.account = account
        ∧ inboxGetCursor account (tick unicode visit cursors).cursors
          = some (processed account run.newHistoryId) := by
  obtain ⟨kept, expects⟩ := pulls.kept
  rw [tick_cursors pulls.delivered]
  refine settle_moving (fun run mem own => ?_) (fun run mem own => ?_) pulls.listed
  · have ok := pulls.pulled run mem own
    exact ⟨ok, numbered.answered mem ok, free run mem own⟩
  · rw [kept]
    exact expects run mem own

/-- A failing tick counts one more failure of the same history, until the valve opens. -/
theorem Fails.step (fails : Fails account visit (tick unicode visit cursors))
    (numbered : visit.Numbered)
    : (failures (inboxGetCursor account cursors) + 1 < CLASSIFY_HOLD_MAX
        ∧ history (inboxGetCursor account (tick unicode visit cursors).cursors)
          = history (inboxGetCursor account cursors)
        ∧ failures (inboxGetCursor account cursors) + 1
          ≤ failures (inboxGetCursor account (tick unicode visit cursors).cursors))
      ∨ Advances unicode account visit (tick unicode visit cursors) := by
  obtain ⟨kept, expects⟩ := fails.kept
  have held
      : ∀ run ∈ (tick unicode visit cursors).runs,
          run.account = account
          → run.isHeld (tick unicode visit cursors).classifyOk = true := by
    intro run mem own
    have ok := fails.pulled run mem own
    simp [AccountRun.isHeld, ok, numbered.answered mem ok, fails.unanswered]
  have opens
      : account ∈ (tick unicode visit cursors).valveAccounts
        ↔ CLASSIFY_HOLD_MAX ≤ failures (inboxGetCursor account cursors) + 1 := by
    have atLimit := mem_limited_held held (kept.symm ▸ expects) fails.listed
    rwa [kept] at atLimit
  by_cases atLimit : CLASSIFY_HOLD_MAX ≤ failures (inboxGetCursor account cursors) + 1
  · have announced := opens.mpr atLimit
    have board
        : (tick unicode visit cursors).board
          = assembleBrief unicode visit.date (tick unicode visit cursors).runs
              (tick unicode visit cursors).items false
              (tick unicode visit cursors).valveAccounts := by
      rw [← fails.unanswered]
      rfl
    refine .inr ⟨fails.moves numbered fun run _ own => .inr (own ▸ announced), announced, ?_, ?_⟩
    · rw [board]
      exact line_on_board notice_mem
    · intro chunk i among unanswered thread inside
      rw [tick_threads] at among
      have listed := classify_unanswered among unanswered inside
      rw [board]
      exact line_on_board
        (unclassified_mem
          (createDrafts_keeps.2 _ listed (by simp [BoardItem.plain, DRAFT_CATEGORIES])) rfl)
  · have below : account ∉ (tick unicode visit cursors).valveAccounts := mt opens.mp atLimit
    obtain ⟨same, counted⟩ :=
      settle_marking
        (fun run mem own =>
          Marking.mk (fails.pulled run mem own)
            (numbered.answered mem (fails.pulled run mem own)) (held run mem own)
            (own ▸ below))
        expects (congrArg history kept)
    rw [← tick_cursors fails.delivered] at same counted
    have some_ : 0 < (tick unicode visit cursors).runs.countP
        (fun run => decide (run.account = account)) := by
      obtain ⟨run, mem, own⟩ := fails.listed
      exact List.countP_pos_iff.mpr ⟨run, mem, decide_eq_true own⟩
    rw [kept] at counted
    exact .inl ⟨Nat.lt_of_not_le atLimit, same, by omega⟩

/-- A clean tick leaves the row active and without failures. -/
theorem Clean.resets (clean : Clean account visit (tick unicode visit cursors))
    (numbered : visit.Numbered)
    : ∃ run ∈ (tick unicode visit cursors).runs,
        run.account = account
        ∧ inboxGetCursor account (tick unicode visit cursors).cursors
          = some (processed account run.newHistoryId) := by
  refine clean.moves numbered fun run mem own => .inl ?_
  simp [AccountRun.isHeld, clean.answered, clean.acted run mem own]

end Ticks

-- Runs

/-- Every tick of the run fails to classify. -/
def KeepsFailing (unicode : Unicode) (account : Str) (cursors : Cursors) (visits : List Visit)
    : Prop :=
  ∀ before visit after,
    visits = before ++ visit :: after
    → Fails account visit (tick unicode visit (ticks unicode before cursors))

/-- The ticks hold the slice, then one moves past it. -/
structure HeldThenAdvanced (unicode : Unicode) (account : Str) (cursors : Cursors)
    (held : List Visit) (visit : Visit)
    : Prop where
  same
    : ∀ earlier,
        earlier <+: held
        → history (inboxGetCursor account (ticks unicode earlier cursors))
          = history (inboxGetCursor account cursors)
  advances : Advances unicode account visit (tick unicode visit (ticks unicode held cursors))

/-- Held ticks and the count they start from stay below the limit, by induction on the ticks. -/
theorem KeepsFailing.advances {unicode : Unicode} {account : Str} {cursors : Cursors}
    {visits : List Visit} (failing : KeepsFailing unicode account cursors visits)
    (numbered : ∀ visit ∈ visits, visit.Numbered) (some_ : visits ≠ [])
    (long : CLASSIFY_HOLD_MAX ≤ failures (inboxGetCursor account cursors) + visits.length)
    : ∃ held visit later,
        visits = held ++ visit :: later
        ∧ (held = []
          ∨ failures (inboxGetCursor account cursors) + held.length < CLASSIFY_HOLD_MAX)
        ∧ HeldThenAdvanced unicode account cursors held visit := by
  induction visits generalizing cursors with
  | nil => exact absurd rfl some_
  | cons visit rest ih =>
      have first : Fails account visit (tick unicode visit cursors) := failing [] visit rest rfl
      rcases first.step (numbered visit List.mem_cons_self) with ⟨below, same, counted⟩ | moves
      · change history (inboxGetCursor account (ticks unicode [visit] cursors)) = _ at same
        change _ ≤ failures (inboxGetCursor account (ticks unicode [visit] cursors)) at counted
        have onward : KeepsFailing unicode account (ticks unicode [visit] cursors) rest :=
          fun before next after split => failing (visit :: before) next after (by rw [split]; rfl)
        rw [List.length_cons] at long
        have left : rest ≠ [] := by
          rintro rfl
          rw [List.length_nil] at long
          omega
        obtain ⟨held, next, later, rfl, bound, holds⟩ :=
          ih onward (fun visit mem => numbered visit (List.mem_cons_of_mem _ mem)) left
            (by omega)
        refine ⟨visit :: held, next, later, rfl, .inr ?_, fun earlier begins => ?_, holds.advances⟩
        · rw [List.length_cons]
          rcases bound with rfl | bound
          · simpa using below
          · omega
        · cases earlier with
          | nil => rfl
          | cons first earlier =>
              obtain ⟨rfl, rest⟩ := List.cons_prefix_cons.mp begins
              exact (holds.same earlier rest).trans same
      · refine ⟨[], visit, rest, rfl, .inl rfl, fun earlier begins => ?_, moves⟩
        rw [List.prefix_nil.mp begins]
        rfl

/-- Among CLASSIFY_HOLD_MAX ticks in a row that pull an account, deliver the brief and fail to
classify, fewer than that many hold the slice before one moves past it with a brief that says so,
whatever row the account has. A tick that classifies, and whose labels and drafts for the account
are written, resets the count.
-/
theorem holding_bounded (unicode : Unicode) (account : Str) (cursors : Cursors)
    : (∀ visits,
        (∀ visit ∈ visits, visit.Numbered)
        → KeepsFailing unicode account cursors visits
        → CLASSIFY_HOLD_MAX ≤ visits.length
        → ∃ held visit later,
            visits = held ++ visit :: later
            ∧ held.length < CLASSIFY_HOLD_MAX
            ∧ HeldThenAdvanced unicode account cursors held visit)
      ∧ ∀ visit,
          visit.Numbered
          → Clean account visit (tick unicode visit cursors)
          → ∃ run ∈ (tick unicode visit cursors).runs,
              run.account = account
              ∧ inboxGetCursor account (tick unicode visit cursors).cursors
                = some (processed account run.newHistoryId) := by
  refine ⟨fun visits numbered failing long => ?_, fun visit numbered clean =>
    clean.resets numbered⟩
  have some_ : visits ≠ [] := by
    rintro rfl
    exact absurd long (by decide)
  obtain ⟨held, visit, later, split, bound, holds⟩ :=
    failing.advances numbered some_ (Nat.le_trans long (Nat.le_add_left _ _))
  refine ⟨held, visit, later, split, ?_, holds⟩
  rcases bound with rfl | bound
  · decide
  · exact Nat.lt_of_le_of_lt (Nat.le_add_left _ _) bound

def sampleUnicode : Unicode :=
  {
    nfkc := id
    isFormat := fun _ => false
  }

def sampleAccount : Str :=
  "steven@gmail.com".toList

def heldThread : ThreadSummary :=
  {
    account := sampleAccount
    threadId := "t1".toList
    sender := "ann".toList
    subject := "hello".toList
    date := "today".toList
    snippet := "a question".toList
  }

def sampleMailbox : Mailbox :=
  {
    identity := .ok true
    pullSinceHistory := fun _ => .ok { threads := [heldThread], newHistoryId := "8".toList }
    pullBoundedBackfill := .ok { threads := [heldThread], newHistoryId := "7".toList }
  }

/-- A tick of one account, with the classifier's answer and what Gmail makes of the labels. -/
def sampleVisit (answer : Classification) (labelled : Bool) : Visit :=
  {
    accounts := [(sampleAccount, sampleMailbox)]
    configured := List.cons_ne_nil _ _
    secrets := true
    nonce := "0f".toList
    answers := fun _ => answer
    labelled := fun _ _ => labelled
    drafts := fun _ => { exists_ := none, composed := none, created := fun _ => none }
    date := "2026-07-16".toList
    delivered := true
  }

def sampleRow : Row :=
  {
    category := .fyi
    known := by decide
    reason := "a greeting".toList
    draftWorthy := false
    draftHint := []
  }

theorem sampleVisit_numbered (answer : Classification) (labelled : Bool)
    : (sampleVisit answer labelled).Numbered := by
  intro entry mem cursor result answers
  rw [List.mem_singleton.mp mem] at answers
  cases cursor <;> cases answers <;> exact List.cons_ne_nil _ _

/-- What of the pulls of a sample can be computed. -/
def samplePulled (report : Report) : Bool :=
  report.runs.any (fun run => run.account = sampleAccount) && report.runs.all AccountRun.ok

theorem sampleVisit_pulls {answer : Classification} {labelled : Bool} {cursors : Cursors}
    (pulled
      : samplePulled (tick sampleUnicode (sampleVisit answer labelled) cursors) = true)
    : Pulls sampleAccount (sampleVisit answer labelled)
        (tick sampleUnicode (sampleVisit answer labelled) cursors) := by
  obtain ⟨listed, ok⟩ := Bool.and_eq_true_iff.mp pulled
  obtain ⟨run, mem, own⟩ := List.any_eq_true.mp listed
  exact ⟨⟨run, mem, of_decide_eq_true own⟩,
    fun run mem _ => List.all_eq_true.mp ok run mem, rfl⟩

/-- Three ticks without an answer, from the first one on. -/
theorem holding_bounded_sample
    : (∃ held visit later,
        List.replicate 3 (sampleVisit none true) = held ++ visit :: later
        ∧ held.length < CLASSIFY_HOLD_MAX
        ∧ HeldThenAdvanced sampleUnicode sampleAccount [] held visit)
      ∧ ∃ run ∈ (tick sampleUnicode (sampleVisit (some fun _ => some sampleRow) true) []).runs,
          run.account = sampleAccount
          ∧ inboxGetCursor sampleAccount
              (tick sampleUnicode (sampleVisit (some fun _ => some sampleRow) true) []).cursors
            = some (processed sampleAccount run.newHistoryId) := by
  have bounded := holding_bounded sampleUnicode sampleAccount []
  constructor
  · refine bounded.1 (List.replicate 3 (sampleVisit none true)) (fun visit mem => ?_) ?_
      (by decide)
    · rw [List.eq_of_mem_replicate mem]
      exact sampleVisit_numbered _ _
    · intro before visit after split
      have among : visit ∈ List.replicate 3 (sampleVisit none true) := by
        rw [split]
        exact List.mem_append_right _ List.mem_cons_self
      have earlier : before = List.replicate before.length (sampleVisit none true) :=
        List.eq_replicate_iff.mpr
          ⟨rfl, fun other mem => List.eq_of_mem_replicate (n := 3) (by
            rw [split]
            exact List.mem_append_left _ mem)⟩
      have short : before.length < 3 := by
        have lengths := congrArg List.length split
        rw [List.length_replicate, List.length_append, List.length_cons] at lengths
        omega
      obtain rfl := List.eq_of_mem_replicate among
      rw [earlier]
      match before.length, short with
      | 0, _ => exact ⟨sampleVisit_pulls (by decide +kernel), by decide +kernel⟩
      | 1, _ => exact ⟨sampleVisit_pulls (by decide +kernel), by decide +kernel⟩
      | 2, _ => exact ⟨sampleVisit_pulls (by decide +kernel), by decide +kernel⟩
  · refine bounded.2 _ (sampleVisit_numbered _ _) ⟨sampleVisit_pulls (by decide +kernel), ?_, ?_⟩
    · decide +kernel
    · decide +kernel

/-- A tick that classifies, but cannot write its label, counts on from the failure before it. -/
theorem label_failure_counts
    : (inboxGetCursor sampleAccount (ticks sampleUnicode [sampleVisit none true] [])).map
          Cursor.attempts
        = some 1
      ∧ samplePulled
          (tick sampleUnicode (sampleVisit (some fun _ => some sampleRow) false)
            (ticks sampleUnicode [sampleVisit none true] []))
        = true
      ∧ (tick sampleUnicode (sampleVisit (some fun _ => some sampleRow) false)
            (ticks sampleUnicode [sampleVisit none true] [])).classifyOk
        = true
      ∧ (inboxGetCursor sampleAccount
            (tick sampleUnicode (sampleVisit (some fun _ => some sampleRow) false)
              (ticks sampleUnicode [sampleVisit none true] [])).cursors).map
          Cursor.attempts
        = some 2 := by
  decide +kernel

end Inbox
