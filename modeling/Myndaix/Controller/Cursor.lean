import Myndaix.Relational.Table

/-! The review cursor: the last commit of a ref whose review delivered, the one that is pending, and
how often that one was tried. Each verb is one guarded statement, so any number of controllers
amounts to some order of their calls.
-/

namespace Controller

open Relational

-- The table

abbrev Sha : Type :=
  String

abbrev Time : Type :=
  Int

inductive CursorState where
  | baseline
  | dispatching
  | delivered
  | blocked
deriving DecidableEq, Repr

/-- A row of `review_cursor`. -/
structure Cursor where
  repoId : String
  ref : String
  baselineSha : Sha
  reviewedSha : Sha
  pendingSha : Option Sha
  state : CursorState
  attempts : Nat
  updatedAt : Time
deriving DecidableEq, Repr

/-- The primary key: the repository and the ref. -/
abbrev Key : Type :=
  String × String

def Cursor.key (row : Cursor) : Key :=
  (row.repoId, row.ref)

abbrev Cursors : Type :=
  List Cursor

def getCursor (key : Key) (rows : Cursors) : Option Cursor :=
  lookup Cursor.key key rows

/-- `UPDATE review_cursor SET change WHERE the key and the guard RETURNING`: whether it found its
row, and the table after it.
-/
def updateCursor (guard : Cursor → Bool) (change : Cursor → Cursor) (key : Key) (rows : Cursors)
    : Bool × Cursors :=
  let selected (row : Cursor) := row.key = key && guard row
  (rows.any selected, update selected change rows)

-- The verbs

/-- `INSERT ... ON CONFLICT DO NOTHING`. -/
def upsertBaseline (head : Sha) (now : Time) (key : Key) (rows : Cursors) : Bool × Cursors :=
  match getCursor key rows with
  | some _ => (false, rows)
  | none =>
      let row : Cursor :=
        {
          repoId := key.1
          ref := key.2
          baselineSha := head
          reviewedSha := head
          pendingSha := none
          state := .baseline
          attempts := 0
          updatedAt := now
        }
      (true, rows ++ [row])

def claimDispatch (head : Sha) (staleBefore now : Time) : Key → Cursors → Bool × Cursors :=
  updateCursor
    (fun row =>
      row.reviewedSha ≠ head
      -- With no pending head the comparison in SQL is unknown, and so is the negation.
      && !(row.state = .blocked && (row.pendingSha = none || row.pendingSha = some head))
      && (row.pendingSha = none || row.state = .blocked || row.updatedAt < staleBefore))
    (fun row =>
      {
        row with
        pendingSha := some head
        state := .dispatching
        attempts := if row.pendingSha ≠ some head then 1 else row.attempts + 1
        updatedAt := now
      })

/-- `to_timestamp(0)`: before every time that a claim calls stale. -/
def epoch : Time :=
  0

def releaseDispatch (head : Sha) : Key → Cursors → Bool × Cursors :=
  updateCursor (fun row => row.pendingSha = some head && row.state = .dispatching)
    (fun row => { row with updatedAt := epoch })

def forgiveTransient (head : Sha) : Key → Cursors → Bool × Cursors :=
  updateCursor
    (fun row => row.pendingSha = some head && (row.state = .dispatching || row.state = .blocked))
    (fun row =>
      { row with updatedAt := epoch, attempts := row.attempts - 1, state := .dispatching })

def delivered (head : Sha) (now : Time) (row : Cursor) : Cursor :=
  {
    row with
    reviewedSha := head
    pendingSha := none
    state := .delivered
    attempts := 0
    updatedAt := now
  }

def advanceCursor (head : Sha) (now : Time) : Key → Cursors → Bool × Cursors :=
  updateCursor (fun row => row.pendingSha = some head) (delivered head now)

def skipTo (head : Sha) (now : Time) : Key → Cursors → Bool × Cursors :=
  updateCursor (fun row => row.reviewedSha ≠ head) (delivered head now)

def markBlocked (head : Sha) (maxAttempts : Int) (now : Time) : Key → Cursors → Bool × Cursors :=
  updateCursor
    (fun row =>
      row.pendingSha = some head && maxAttempts ≤ row.attempts && row.state = .dispatching)
    (fun row => { row with state := .blocked, updatedAt := now })

/-- A call of a verb, with its arguments and the time at which its statement runs. -/
inductive Verb where
  | upsertBaseline (head : Sha) (now : Time)
  | claimDispatch (head : Sha) (staleBefore now : Time)
  | releaseDispatch (head : Sha)
  | forgiveTransient (head : Sha)
  | advanceCursor (head : Sha) (now : Time)
  | skipTo (head : Sha) (now : Time)
  | markBlocked (head : Sha) (maxAttempts : Int) (now : Time)
deriving DecidableEq, Repr

/-- Whether the caller won the transition, and the table after it. -/
def Verb.call : Verb → Key → Cursors → Bool × Cursors
  | .upsertBaseline head now => Controller.upsertBaseline head now
  | .claimDispatch head staleBefore now => Controller.claimDispatch head staleBefore now
  | .releaseDispatch head => Controller.releaseDispatch head
  | .forgiveTransient head => Controller.forgiveTransient head
  | .advanceCursor head now => Controller.advanceCursor head now
  | .skipTo head now => Controller.skipTo head now
  | .markBlocked head maxAttempts now => Controller.markBlocked head maxAttempts now

-- What a won call does to its row

/-- The transitions of a row, with what each verb has checked. -/
inductive Moves (key : Key) : Verb → Option Cursor → Cursor → Prop
  | upsertBaseline (head : Sha) (now : Time)
    : Moves key (.upsertBaseline head now) none
        {
          repoId := key.1, ref := key.2, baselineSha := head, reviewedSha := head,
          pendingSha := none,
          state := .baseline, attempts := 0, updatedAt := now
        }
  | claimDispatch {head : Sha} {staleBefore : Time} (now : Time) {row : Cursor}
    (unreviewed : row.reviewedSha ≠ head)
    (unblocked : ¬(row.state = .blocked ∧ (row.pendingSha = none ∨ row.pendingSha = some head)))
    (free : row.pendingSha = none ∨ row.state = .blocked ∨ row.updatedAt < staleBefore)
    : Moves key (.claimDispatch head staleBefore now) (some row)
        {
          row with
          pendingSha := some head
          state := .dispatching
          attempts := if row.pendingSha ≠ some head then 1 else row.attempts + 1
          updatedAt := now
        }
  | releaseDispatch {head : Sha} {row : Cursor} (pending : row.pendingSha = some head)
    (dispatching : row.state = .dispatching)
    : Moves key (.releaseDispatch head) (some row) { row with updatedAt := epoch }
  | forgiveTransient {head : Sha} {row : Cursor} (pending : row.pendingSha = some head)
    (held : row.state = .dispatching ∨ row.state = .blocked)
    : Moves key (.forgiveTransient head) (some row)
        { row with updatedAt := epoch, attempts := row.attempts - 1, state := .dispatching }
  | advanceCursor {head : Sha} (now : Time) {row : Cursor} (pending : row.pendingSha = some head)
    : Moves key (.advanceCursor head now) (some row) (delivered head now row)
  | skipTo {head : Sha} (now : Time) {row : Cursor} (unreviewed : row.reviewedSha ≠ head)
    : Moves key (.skipTo head now) (some row) (delivered head now row)
  | markBlocked {head : Sha} {maxAttempts : Int} (now : Time) {row : Cursor}
    (pending : row.pendingSha = some head) (exhausted : maxAttempts ≤ row.attempts)
    (dispatching : row.state = .dispatching)
    : Moves key (.markBlocked head maxAttempts now) (some row)
        { row with state := .blocked, updatedAt := now }

section Updates

variable {guard : Cursor → Bool} {change : Cursor → Cursor} {key other : Key} {rows : Cursors}
  {row : Cursor}

/-- A statement that does not find its row changes nothing. -/
theorem updateCursor_lost (lost : (updateCursor guard change key rows).1 = false)
    : (updateCursor guard change key rows).2 = rows := by
  have unselected := List.any_eq_false.mp lost
  refine (List.map_congr_left fun row mem => ?_).trans (List.map_id rows)
  exact if_neg (unselected row mem)

/-- A statement that finds its row changes that row and no other. -/
theorem updateCursor_won (won : (updateCursor guard change key rows).1 = true)
    (unique : Unique Cursor.key rows) (keeps : ∀ row, (change row).key = row.key)
    : ∃ row,
        getCursor key rows = some row
        ∧ guard row = true
        ∧ getCursor key (updateCursor guard change key rows).2 = some (change row) := by
  obtain ⟨row, mem, selected⟩ := List.any_eq_true.mp won
  obtain ⟨own, guarded⟩ := Bool.and_eq_true_iff.mp selected
  have own := of_decide_eq_true own
  have found : getCursor key rows = some row := own ▸ lookup_of_mem unique mem
  refine ⟨row, found, guarded, ?_⟩
  unfold getCursor updateCursor at *
  rw [lookup_update keeps, found, Option.map_some, if_pos selected]

/-- Other cursors stay. -/
theorem updateCursor_other (keeps : ∀ row, (change row).key = row.key) (different : other ≠ key)
    : getCursor other (updateCursor guard change key rows).2 = getCursor other rows := by
  unfold getCursor updateCursor
  rw [lookup_update keeps]
  cases found : lookup Cursor.key other rows with
  | none => rfl
  | some row =>
      have unselected : ¬(row.key = key && guard row) = true := by
        rw [lookup_key found]
        simp [different]
      rw [Option.map_some, if_neg unselected]

/-- A statement about a row that is there finds it if its guard holds of it. -/
theorem updateCursor_fst (found : getCursor key rows = some row) (unique : Unique Cursor.key rows)
    : (updateCursor guard change key rows).1 = guard row := by
  have own : row.key = key := lookup_key found
  rw [Bool.eq_iff_iff]
  constructor
  · intro won
    obtain ⟨other, mem, selected⟩ := List.any_eq_true.mp won
    obtain ⟨same, guarded⟩ := Bool.and_eq_true_iff.mp selected
    have foundOther := lookup_of_mem unique mem
    rw [of_decide_eq_true same] at foundOther
    cases found.symm.trans foundOther
    exact guarded
  · intro guarded
    refine List.any_eq_true.mpr ⟨row, lookup_mem found, ?_⟩
    rw [decide_eq_true own, guarded]
    rfl

end Updates

section Calls

variable {key other : Key} {rows : Cursors} {verb : Verb} {head : Sha} {now : Time} {row : Cursor}

theorem upsertBaseline_found (found : getCursor key rows = some row)
    : upsertBaseline head now key rows = (false, rows) := by
  rw [upsertBaseline, found]

theorem upsertBaseline_absent (absent : getCursor key rows = none)
    : ∃ row,
        row.key = key
        ∧ Moves key (.upsertBaseline head now) none row
        ∧ upsertBaseline head now key rows = (true, rows ++ [row]) := by
  refine ⟨_, rfl, .upsertBaseline head now, ?_⟩
  rw [upsertBaseline, absent]

/-- A call that is lost changes nothing. -/
theorem Verb.call_lost (lost : (verb.call key rows).1 = false) : (verb.call key rows).2 = rows := by
  cases verb with
  | upsertBaseline head now =>
      change (Controller.upsertBaseline head now key rows).1 = false at lost
      change (Controller.upsertBaseline head now key rows).2 = rows
      cases found : getCursor key rows with
      | some row => rw [upsertBaseline_found found]
      | none =>
          obtain ⟨row, _, _, inserts⟩ := upsertBaseline_absent found
          rw [inserts] at lost
          cases lost
  | _ => exact updateCursor_lost lost

/-- A call that is won makes its transition. -/
theorem Verb.call_won (unique : Unique Cursor.key rows) (won : (verb.call key rows).1 = true)
    : ∃ after,
        getCursor key (verb.call key rows).2 = some after
        ∧ Moves key verb (getCursor key rows) after := by
  cases verb with
  | upsertBaseline head now =>
      change (Controller.upsertBaseline head now key rows).1 = true at won
      change ∃ after, getCursor key (Controller.upsertBaseline head now key rows).2 = some after ∧ _
      cases found : getCursor key rows with
      | some row =>
          rw [upsertBaseline_found found] at won
          cases won
      | none =>
          obtain ⟨row, own, moves, inserts⟩ := upsertBaseline_absent found
          refine ⟨row, ?_, moves⟩
          rw [getCursor] at found ⊢
          rw [inserts, lookup_append, found, if_pos own]
          rfl
  | claimDispatch head staleBefore now =>
      obtain ⟨row, found, guarded, after⟩ := updateCursor_won won unique (fun _ => rfl)
      simp only [Bool.and_eq_true, Bool.or_eq_true, Bool.not_eq_true', Bool.and_eq_false_iff,
        Bool.or_eq_false_iff, decide_eq_true_eq, decide_eq_false_iff_not] at guarded
      obtain ⟨⟨unreviewed, unblocked⟩, free⟩ := guarded
      refine ⟨_, after, found ▸ .claimDispatch now unreviewed ?_ (or_assoc.mp free)⟩
      rintro ⟨blocked, unset | same⟩
      · exact unblocked.elim (absurd blocked) fun distinct => distinct.1 unset
      · exact unblocked.elim (absurd blocked) fun distinct => distinct.2 same
  | releaseDispatch head =>
      obtain ⟨row, found, guarded, after⟩ := updateCursor_won won unique (fun _ => rfl)
      simp only [Bool.and_eq_true, decide_eq_true_eq] at guarded
      exact ⟨_, after, found ▸ .releaseDispatch guarded.1 guarded.2⟩
  | forgiveTransient head =>
      obtain ⟨row, found, guarded, after⟩ := updateCursor_won won unique (fun _ => rfl)
      simp only [Bool.and_eq_true, Bool.or_eq_true, decide_eq_true_eq] at guarded
      exact ⟨_, after, found ▸ .forgiveTransient guarded.1 guarded.2⟩
  | advanceCursor head now =>
      obtain ⟨row, found, guarded, after⟩ := updateCursor_won won unique (fun _ => rfl)
      exact ⟨_, after, found ▸ .advanceCursor now (of_decide_eq_true guarded)⟩
  | skipTo head now =>
      obtain ⟨row, found, guarded, after⟩ := updateCursor_won won unique (fun _ => rfl)
      exact ⟨_, after, found ▸ .skipTo now (of_decide_eq_true guarded)⟩
  | markBlocked head maxAttempts now =>
      obtain ⟨row, found, guarded, after⟩ := updateCursor_won won unique (fun _ => rfl)
      simp only [Bool.and_eq_true, decide_eq_true_eq] at guarded
      exact ⟨_, after, found ▸ .markBlocked now guarded.1.1 guarded.1.2 guarded.2⟩

/-- No call touches the row of another key. -/
theorem Verb.call_other (different : other ≠ key)
    : getCursor other (verb.call key rows).2 = getCursor other rows := by
  cases verb with
  | upsertBaseline head now =>
      change getCursor other (Controller.upsertBaseline head now key rows).2 = _
      cases found : getCursor key rows with
      | some row => rw [upsertBaseline_found found]
      | none =>
          obtain ⟨row, own, _, inserts⟩ := upsertBaseline_absent found
          rw [inserts, getCursor, getCursor, lookup_append,
            if_neg (fun same => different (same.symm.trans own)), Option.or_none]
  | _ => exact updateCursor_other (fun _ => rfl) different

/-- Keys stay unique. -/
theorem Verb.call_unique (unique : Unique Cursor.key rows)
    : Unique Cursor.key (verb.call key rows).2 := by
  cases verb with
  | upsertBaseline head now =>
      change Unique Cursor.key (Controller.upsertBaseline head now key rows).2
      cases found : getCursor key rows with
      | some row =>
          rw [upsertBaseline_found found]
          exact unique
      | none =>
          obtain ⟨row, own, _, inserts⟩ := upsertBaseline_absent found
          rw [inserts]
          exact unique.append (own ▸ found)
  | _ => exact unique.update fun _ => rfl

end Calls

-- Runs

/-- Calls in any order, with those that were won, the latest first. -/
inductive Runs (start : Cursors) : Cursors → List (Key × Verb) → Prop
  | start : Runs start start []
  | call {rows : Cursors} {wins : List (Key × Verb)} (earlier : Runs start rows wins) (key : Key)
    (verb : Verb)
    : Runs start (verb.call key rows).2
        (if (verb.call key rows).1 then (key, verb) :: wins else wins)

/-- The claims of a head since it last became pending, with one more call that was won. -/
def Verb.recount (head : Sha) (claims : Nat) : Verb → Nat
  | .claimDispatch claimed _ _ => if claimed = head then claims + 1 else 0
  | .upsertBaseline _ _ | .advanceCursor _ _ | .skipTo _ _ => 0
  | .releaseDispatch _ | .forgiveTransient _ | .markBlocked _ _ _ => claims

/-- How often a head was claimed since it last became pending. -/
def claimsOf (key : Key) (head : Sha) : List (Key × Verb) → Nat
  | [] => 0
  | (other, verb) :: earlier =>
      if other = key then verb.recount head (claimsOf key head earlier)
      else claimsOf key head earlier

/-- The columns of a row agree with each other and with its claims. -/
structure Cursor.Coherent (row : Cursor) (wins : List (Key × Verb)) : Prop where
  unreviewed : ∀ pending, row.pendingSha = some pending → pending ≠ row.reviewedSha
  idle
    : row.state = .baseline ∨ row.state = .delivered → row.pendingSha = none ∧ row.attempts = 0
  busy : row.state = .dispatching ∨ row.state = .blocked → row.pendingSha.isSome = true
  claimed
    : ∀ pending, row.pendingSha = some pending → row.attempts ≤ claimsOf row.key pending wins

/-- No verb moves a row to another key. -/
theorem Moves.key {key : Key} {verb : Verb} {before : Option Cursor} {after : Cursor}
    (moves : Moves key verb before after) (own : ∀ row, before = some row → row.key = key)
    : after.key = key := by
  cases moves with
  | upsertBaseline head now => rfl
  | @claimDispatch _ _ _ row | @releaseDispatch _ row | @forgiveTransient _ row
  | @advanceCursor _ _ row | @skipTo _ _ row | @markBlocked _ _ _ row => exact own row rfl

/-- Every transition leaves its row coherent. -/
theorem Moves.coherent {key : Key} {verb : Verb} {before : Option Cursor} {after : Cursor}
    {wins : List (Key × Verb)} (moves : Moves key verb before after)
    (own : ∀ row, before = some row → row.key = key)
    (coherent : ∀ row, before = some row → row.Coherent wins)
    : after.Coherent ((key, verb) :: wins) := by
  have afterKey := moves.key own
  have claims (head : Sha)
      : claimsOf after.key head ((key, verb) :: wins)
        = verb.recount head (claimsOf key head wins) := by
    rw [afterKey]
    exact if_pos rfl
  cases moves with
  | upsertBaseline head now => exact ⟨nofun, fun _ => ⟨rfl, rfl⟩, nofun, nofun⟩
  | @claimDispatch head staleBefore now row unreviewed unblocked free =>
      obtain ⟨_, _, _, claimed⟩ := coherent row rfl
      refine ⟨?_, nofun, fun _ => rfl, ?_⟩
      · intro pending same
        cases same
        exact unreviewed.symm
      · intro pending same
        cases same
        rw [claims head, Verb.recount, if_pos rfl]
        dsimp only
        split
        · exact Nat.succ_le_succ (Nat.zero_le _)
        · rename_i again
          exact Nat.succ_le_succ (own row rfl ▸ claimed head (not_not.mp again))
  | @releaseDispatch head row pending dispatching =>
      obtain ⟨unreviewed, idle, busy, claimed⟩ := coherent row rfl
      exact ⟨unreviewed, idle, busy,
        fun head same => (claims head).symm ▸ own row rfl ▸ claimed head same⟩
  | @forgiveTransient head row pending held =>
      obtain ⟨unreviewed, _, busy, claimed⟩ := coherent row rfl
      refine ⟨unreviewed, nofun, fun _ => busy held, fun head same => ?_⟩
      exact Nat.le_trans (Nat.sub_le _ _) ((claims head).symm ▸ own row rfl ▸ claimed head same)
  | advanceCursor now pending => exact ⟨nofun, fun _ => ⟨rfl, rfl⟩, nofun, nofun⟩
  | skipTo now unreviewed => exact ⟨nofun, fun _ => ⟨rfl, rfl⟩, nofun, nofun⟩
  | @markBlocked head maxAttempts now row pending exhausted dispatching =>
      obtain ⟨unreviewed, _, busy, claimed⟩ := coherent row rfl
      exact ⟨unreviewed, nofun, fun _ => busy (.inl dispatching),
        fun head same => (claims head).symm ▸ own row rfl ▸ claimed head same⟩

/-- A call for another key does not count. -/
theorem Cursor.Coherent.other {row : Cursor} {key : Key} {verb : Verb} {wins : List (Key × Verb)}
    (coherent : row.Coherent wins) (different : row.key ≠ key)
    : row.Coherent ((key, verb) :: wins) where
  unreviewed := coherent.unreviewed
  idle := coherent.idle
  busy := coherent.busy
  claimed := by
    intro pending same
    exact Nat.le_trans (coherent.claimed pending same) (Nat.le_of_eq (if_neg different.symm).symm)

/-- In every run from the empty table all rows are coherent, by induction on the run. -/
theorem Runs.coherent {rows : Cursors} {wins : List (Key × Verb)} (runs : Runs [] rows wins)
    : Unique Cursor.key rows ∧ ∀ row ∈ rows, row.Coherent wins := by
  induction runs with
  | start => exact ⟨List.nodup_nil, nofun⟩
  | @call rows wins earlier key verb ih =>
      obtain ⟨unique, coherent⟩ := ih
      have stillUnique : Unique Cursor.key (verb.call key rows).2 := Verb.call_unique unique
      refine ⟨stillUnique, fun row mem => ?_⟩
      cases won : (verb.call key rows).1 with
      | false =>
          rw [Verb.call_lost won] at mem
          exact coherent row mem
      | true =>
          obtain ⟨after, found, moves⟩ := Verb.call_won unique won
          have foundRow : getCursor row.key (verb.call key rows).2 = some row :=
            lookup_of_mem stillUnique mem
          rw [if_pos rfl]
          by_cases same : row.key = key
          · rw [same, found] at foundRow
            cases foundRow
            exact moves.coherent (fun _ isRow => lookup_key isRow)
              fun row isRow => coherent row (lookup_mem isRow)
          · rw [Verb.call_other same] at foundRow
            exact (coherent row (lookup_mem foundRow)).other same

/-- By induction on the run. -/
theorem Runs.unique {start rows : Cursors} {wins : List (Key × Verb)} (runs : Runs start rows wins)
    (unique : Unique Cursor.key start)
    : Unique Cursor.key rows := by
  induction runs with
  | start => exact unique
  | call _ key verb ih => exact Verb.call_unique ih

-- Claims

/-- A claim does not get a row whose dispatch is not stale. -/
theorem claimDispatch_inFlight {head : Sha} {staleBefore now : Time} {key : Key} {rows : Cursors}
    {row : Cursor} (unique : Unique Cursor.key rows) (found : getCursor key rows = some row)
    (pending : row.pendingSha.isSome = true) (dispatching : row.state = .dispatching)
    (fresh : staleBefore ≤ row.updatedAt)
    : claimDispatch head staleBefore now key rows = (false, rows) := by
  have lost : (claimDispatch head staleBefore now key rows).1 = false := by
    refine (updateCursor_fst found unique).trans ?_
    have held : row.pendingSha ≠ none := Option.isSome_iff_ne_none.mp pending
    have notStale : ¬row.updatedAt < staleBefore := Int.not_lt.mpr fresh
    simp [held, dispatching, notStale]
  exact Prod.ext lost (updateCursor_lost lost)

/-- The calls after which a head that was blocked can be claimed again. -/
def Verb.Unblocks (head : Sha) : Verb → Prop
  | .forgiveTransient forgiven => forgiven = head
  | .claimDispatch claimed _ _ => claimed ≠ head
  | .skipTo _ _ => True
  | .upsertBaseline _ _ | .releaseDispatch _ | .advanceCursor _ _ | .markBlocked _ _ _ => False

/-- The row refuses claims of a head. -/
def Cursor.Refuses (head : Sha) (row : Cursor) : Prop :=
  row.state = .blocked ∧ row.pendingSha = some head
  ∨ row.reviewedSha = head ∧ row.pendingSha = none

/-- The row of a key refuses claims of a head until a call has unblocked it. -/
def Barred (key : Key) (head : Sha) (rows : Cursors) (wins : List (Key × Verb)) : Prop :=
  (∃ verb, (key, verb) ∈ wins ∧ verb.Unblocks head)
  ∨ ∃ row, getCursor key rows = some row ∧ row.Refuses head

/-- A row that refuses a head moves by a call that unblocks it, or refuses it still. -/
theorem Moves.refuses {key : Key} {verb : Verb} {row after : Cursor} {head : Sha}
    (moves : Moves key verb (some row) after) (refuses : row.Refuses head)
    : verb.Unblocks head ∨ after.Refuses head := by
  cases moves with
  | @claimDispatch claimed staleBefore now _ unreviewed unblocked free =>
      left
      rintro rfl
      cases refuses with
      | inl blocked => exact unblocked ⟨blocked.1, .inr blocked.2⟩
      | inr reviewed => exact unreviewed reviewed.1
  | @releaseDispatch released _ pending dispatching =>
      cases refuses with
      | inl blocked => exact nomatch dispatching.symm.trans blocked.1
      | inr reviewed => exact nomatch pending.symm.trans reviewed.2
  | @forgiveTransient forgiven _ pending held =>
      cases refuses with
      | inl blocked => exact .inl (Option.some.inj (pending.symm.trans blocked.2))
      | inr reviewed => exact nomatch pending.symm.trans reviewed.2
  | @advanceCursor advanced now _ pending =>
      cases refuses with
      | inl blocked => exact .inr (.inr ⟨Option.some.inj (pending.symm.trans blocked.2), rfl⟩)
      | inr reviewed => exact nomatch pending.symm.trans reviewed.2
  | skipTo now unreviewed => exact .inl trivial
  | @markBlocked marked maxAttempts now _ pending exhausted dispatching =>
      cases refuses with
      | inl blocked => exact nomatch dispatching.symm.trans blocked.1
      | inr reviewed => exact nomatch pending.symm.trans reviewed.2

section Barred

variable {key called : Key} {head : Sha} {rows : Cursors} {wins : List (Key × Verb)} {verb : Verb}

/-- A head that is barred stays so. -/
theorem Barred.call (barred : Barred key head rows wins) (unique : Unique Cursor.key rows)
    (won : (verb.call called rows).1 = true)
    : Barred key head (verb.call called rows).2 ((called, verb) :: wins) := by
  rcases barred with ⟨earlier, mem, unblocks⟩ | ⟨row, found, refuses⟩
  · exact .inl ⟨earlier, List.mem_cons_of_mem _ mem, unblocks⟩
  · by_cases same : called = key
    · subst same
      obtain ⟨after, foundAfter, moves⟩ := Verb.call_won unique won
      rw [found] at moves
      cases moves.refuses refuses with
      | inl unblocks => exact .inl ⟨verb, List.mem_cons_self, unblocks⟩
      | inr stillRefuses => exact .inr ⟨after, foundAfter, stillRefuses⟩
    · have kept : getCursor key (verb.call called rows).2 = some row :=
        (Verb.call_other (Ne.symm same)).trans found
      exact .inr ⟨row, kept, refuses⟩

/-- A claim of a barred head is won only after a call that unblocked it. -/
theorem Barred.claim {staleBefore now : Time} (barred : Barred key head rows wins)
    (unique : Unique Cursor.key rows)
    (won : ((Verb.claimDispatch head staleBefore now).call key rows).1 = true)
    : ∃ verb, (key, verb) ∈ wins ∧ verb.Unblocks head := by
  rcases barred with earlier | ⟨row, found, refuses⟩
  · exact earlier
  · obtain ⟨after, foundAfter, moves⟩ := Verb.call_won unique won
    rw [found] at moves
    cases moves with
    | claimDispatch now unreviewed unblocked free =>
        cases refuses with
        | inl blocked => exact absurd ⟨blocked.1, .inr blocked.2⟩ unblocked
        | inr reviewed => exact absurd reviewed.1 unreviewed

end Barred

/-- In a run that starts with a head refused, every claim of that head that is won comes after a
call that unblocked it.
-/
theorem Runs.barred {start rows : Cursors} {wins : List (Key × Verb)} {key : Key} {head : Sha}
    {row : Cursor} (unique : Unique Cursor.key start) (found : getCursor key start = some row)
    (refuses : row.Refuses head) (runs : Runs start rows wins)
    : Barred key head rows wins
      ∧ ∀ newer staleBefore now older,
          wins = newer ++ (key, .claimDispatch head staleBefore now) :: older
          → ∃ verb, (key, verb) ∈ older ∧ verb.Unblocks head := by
  induction runs with
  | start =>
      refine ⟨.inr ⟨row, found, refuses⟩, ?_⟩
      intro newer staleBefore now older same
      exact nomatch (List.append_eq_nil_iff.mp same.symm).2
  | @call rows wins earlier called verb ih =>
      obtain ⟨barred, claims⟩ := ih
      have stillUnique : Unique Cursor.key rows := earlier.unique unique
      cases won : (verb.call called rows).1 with
      | false =>
          rw [Verb.call_lost won]
          exact ⟨barred, claims⟩
      | true =>
          rw [if_pos rfl]
          refine ⟨barred.call stillUnique won, ?_⟩
          intro newer staleBefore now older same
          cases newer with
          | nil =>
              cases same
              exact barred.claim stillUnique won
          | cons latest newer =>
              cases same
              exact claims newer staleBefore now older rfl

-- The state machine

/-- Every run of the verbs from the empty table keeps the columns of each row coherent; claims take
no dispatch that is in flight, and take a head that was blocked only after a call that unblocked it.
-/
theorem cursor_machine
    : ∀ {rows : Cursors} {wins : List (Key × Verb)},
        Runs [] rows wins
        → (∀ row ∈ rows, row.Coherent wins)
          ∧ (∀ row ∈ rows,
              row.pendingSha.isSome = true
              → row.state = .dispatching
              → ∀ head staleBefore now,
                  staleBefore ≤ row.updatedAt
                  → claimDispatch head staleBefore now row.key rows = (false, rows))
          ∧ (∀ row ∈ rows,
              ∀ head,
                row.state = .blocked
                → row.pendingSha = some head
                → ∀ later newer staleBefore now older,
                    Runs rows later
                      (newer ++ (row.key, .claimDispatch head staleBefore now) :: older)
                    → ∃ verb, (row.key, verb) ∈ older ∧ verb.Unblocks head) := by
  intro rows wins runs
  obtain ⟨unique, coherent⟩ := runs.coherent
  refine ⟨coherent, ?_, ?_⟩
  · intro row mem pending dispatching head staleBefore now fresh
    exact claimDispatch_inFlight unique (lookup_of_mem unique mem) pending dispatching fresh
  · intro row mem head blocked pending later newer staleBefore now older further
    have found : getCursor row.key rows = some row := lookup_of_mem unique mem
    have barred := Runs.barred unique found (.inl ⟨blocked, pending⟩) further
    exact barred.2 newer staleBefore now older rfl

/-- The table and the calls that were won after some more calls. -/
def callAll (calls : List (Key × Verb)) (rows : Cursors) (wins : List (Key × Verb))
    : Cursors × List (Key × Verb) :=
  match calls with
  | [] => (rows, wins)
  | (key, verb) :: later =>
      let called := verb.call key rows
      callAll later called.2 (if called.1 then (key, verb) :: wins else wins)

theorem Runs.callAll {start rows : Cursors} {wins : List (Key × Verb)} (runs : Runs start rows wins)
    (calls : List (Key × Verb))
    : Runs start (callAll calls rows wins).1 (callAll calls rows wins).2 := by
  induction calls generalizing rows wins with
  | nil => exact runs
  | cons called later ih => exact ih (runs.call called.1 called.2)

def sampleKey : Key :=
  ("repo", "main")

/-- The head `b` is claimed once and blocked. -/
def sampleBlocked : Cursors × List (Key × Verb) :=
  callAll
    [
      (sampleKey, .upsertBaseline "a" 1),
      (sampleKey, .claimDispatch "b" 0 2),
      (sampleKey, .markBlocked "b" 1 3)
    ]
    [] []

def sampleRow : Cursor :=
  {
    repoId := "repo", ref := "main", baselineSha := "a", reviewedSha := "a", pendingSha := some "b",
    state := .blocked, attempts := 1, updatedAt := 3
  }

/-- A dispatch that was forgiven is claimed again. -/
theorem cursor_machine_sample
    : sampleRow.Coherent sampleBlocked.2
      ∧ ∃ verb,
          (sampleKey, verb) ∈ [(sampleKey, Verb.forgiveTransient "b")] ∧ verb.Unblocks "b" := by
  have runs : Runs [] sampleBlocked.1 sampleBlocked.2 := Runs.start.callAll _
  have mem : sampleRow ∈ sampleBlocked.1 := by decide +kernel
  have machine := cursor_machine runs
  have further := Runs.callAll (.start : Runs sampleBlocked.1 _ _)
    [(sampleKey, .forgiveTransient "b"), (sampleKey, .claimDispatch "b" 1 4)]
  have wins
      : (callAll [(sampleKey, .forgiveTransient "b"), (sampleKey, .claimDispatch "b" 1 4)]
            sampleBlocked.1 []).2
        = [(sampleKey, .claimDispatch "b" 1 4), (sampleKey, .forgiveTransient "b")] := by
    decide +kernel
  rw [wins] at further
  exact ⟨machine.1 sampleRow mem, machine.2.2 sampleRow mem "b" rfl rfl _ [] 1 4 _ further⟩

/-- Skipping to another commit clears the block: the head is claimed again, and no call before that
forgave it or claimed another head.
-/
theorem blocked_reclaimed_after_skip
    : Runs [] sampleBlocked.1 sampleBlocked.2
      ∧ sampleRow ∈ sampleBlocked.1
      ∧ (∃ later,
          Runs sampleBlocked.1 later
            [(sampleKey, .claimDispatch "b" 1 5), (sampleKey, .skipTo "c" 4)])
      ∧ ∀ verb,
          (sampleKey, verb) ∈ [(sampleKey, Verb.skipTo "c" 4)]
          → verb ≠ .forgiveTransient "b"
            ∧ ∀ head staleBefore now, verb ≠ .claimDispatch head staleBefore now := by
  have further := Runs.callAll (.start : Runs sampleBlocked.1 _ _)
    [(sampleKey, .skipTo "c" 4), (sampleKey, .claimDispatch "b" 1 5)]
  have wins
      : (callAll [(sampleKey, .skipTo "c" 4), (sampleKey, .claimDispatch "b" 1 5)]
            sampleBlocked.1 []).2
        = [(sampleKey, .claimDispatch "b" 1 5), (sampleKey, .skipTo "c" 4)] := by
    decide +kernel
  rw [wins] at further
  refine ⟨Runs.start.callAll _, by decide +kernel, ⟨_, further⟩, ?_⟩
  intro verb mem
  cases List.mem_singleton.mp mem
  exact ⟨nofun, nofun⟩

end Controller
