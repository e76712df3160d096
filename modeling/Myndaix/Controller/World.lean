import Myndaix.Controller.Looks

/-! The world of the controller: the table of cursors, the clock, the reviews that workers deliver
and the markers that they leave. The looks at a ref run one after another, under the lock of the
controller; the workers outlive them.
-/

namespace Controller

open Interaction Interaction.Program Relational

-- States

/-- How far a dispatch has come. -/
inductive Phase where
  | claimed
  | started
  | failed
deriving DecidableEq, Repr

structure Dispatch where
  claimedAt : Time
  phase : Phase
deriving DecidableEq, Repr

/-- The changes from one commit to another. -/
structure Range where
  base : Sha
  tip : Sha
deriving DecidableEq, Repr

/-- The dispatches are those of the pending head since it became pending; the markers are told with
the range whose review has left them. Delivered reviews, alerts about skipped ranges and moves of
the cursor are never forgotten, and the log is that of the look since the cursor was read.
-/
structure World where
  rows : Cursors
  clock : Time
  dispatches : List Dispatch
  done : List Range
  delivered : List Range
  flags : List Range
  moves : List Range
  log : List (Event Query Answer)

/-- The sizes that git gives for a range. -/
structure Git where
  lines : Sha → Sha → Nat
  bytes : Sha → Sha → Nat

-- Calls

/-- The statement that a query runs. -/
def verbOf (now : Time) : Query → Option Verb
  | .upsertBaseline head => some (.upsertBaseline head now)
  | .claimDispatch head staleBefore => some (.claimDispatch head staleBefore now)
  | .releaseDispatch head => some (.releaseDispatch head)
  | .forgiveTransient head => some (.forgiveTransient head)
  | .advanceCursor head => some (.advanceCursor head now)
  | .skipTo head => some (.skipTo head now)
  | .markBlocked head maxAttempts => some (.markBlocked head maxAttempts now)
  | _ => none

/-- The start of a dispatch has come to this, if it was open. -/
def Dispatch.comesTo (phase : Phase) (dispatch : Dispatch) : Dispatch :=
  if dispatch.phase = .claimed then { dispatch with phase } else dispatch

def dispatchesAfter (pending : Option Sha) (now : Time) (dispatches : List Dispatch)
    : (query : Query) → Answer query → List Dispatch
  | .claimDispatch head _, true =>
      let latest : Dispatch := { claimedAt := now, phase := .claimed }
      if pending = some head then latest :: dispatches else [latest]
  | .recordDispatch _ _, _ => dispatches.modifyHead (Dispatch.comesTo .started)
  | .playReview _ _, some 0 => dispatches.modifyHead (Dispatch.comesTo .started)
  | .releaseDispatch _, true => dispatches.modifyHead (Dispatch.comesTo .failed)
  | .advanceCursor _, true | .skipTo _, true => []
  | _, _ => dispatches

def flagsAfter (flags : List Range) : (query : Query) → Answer query → List Range
  | .alertJefe (.rangeTooLarge base tip _ _), true => { base, tip } :: flags
  | _, _ => flags

def movesAfter (reviewed : Option Sha) (moves : List Range)
    : (query : Query) → Answer query → List Range
  | .advanceCursor tip, true | .skipTo tip, true =>
      match reviewed with
      | some base => { base, tip } :: moves
      | none => moves
  | _, _ => moves

def logAfter (log : List (Event Query Answer)) (query : Query) (answer : Answer query)
    : List (Event Query Answer) :=
  match query with
  | .getCursor => []
  | query => log ++ [⟨query, answer⟩]

variable (git : Git) (key : Key)

def World.cursor (world : World) : Option Cursor :=
  getCursor key world.rows

/-- What a call leaves behind. -/
def World.after (world : World) (query : Query) (answer : Answer query) : World :=
  { world with
    rows :=
      match verbOf world.clock query with
      | some verb => (verb.call key world.rows).2
      | none => world.rows
    dispatches :=
      dispatchesAfter ((world.cursor key).bind Cursor.pendingSha) world.clock world.dispatches query
        answer
    flags := flagsAfter world.flags query answer
    moves := movesAfter ((world.cursor key).map Cursor.reviewedSha) world.moves query answer
    log := logAfter world.log query answer }

/-- What a call can be answered. The ledger runs its statement, git tells the size if it tells
anything, and a marker is found if it is there; every other answer may be any.
-/
def Truthful (world : World) : (query : Query) → Answer query → Prop
  | .getCursor, cursor => cursor = world.cursor key
  | .upsertBaseline head, won =>
      won = ((Verb.upsertBaseline head world.clock).call key world.rows).1
  | .claimDispatch head staleBefore, won =>
      won = ((Verb.claimDispatch head staleBefore world.clock).call key world.rows).1
  | .releaseDispatch head, won => won = ((Verb.releaseDispatch head).call key world.rows).1
  | .forgiveTransient head, won => won = ((Verb.forgiveTransient head).call key world.rows).1
  | .advanceCursor head, won =>
      won = ((Verb.advanceCursor head world.clock).call key world.rows).1
  | .skipTo head, won => won = ((Verb.skipTo head world.clock).call key world.rows).1
  | .markBlocked head maxAttempts, won =>
      won = ((Verb.markBlocked head maxAttempts world.clock).call key world.rows).1
  | .now, now => now = world.clock
  | .doneExists sha, found => found = true → ∃ range ∈ world.done, range.tip = sha
  | .diffNumstat base commit, numstat =>
      ∀ columns, numstat = some columns → diffLines columns = git.lines base commit
  | .diff base commit, patch =>
      ∀ bytes, patch = some bytes → diffBytes bytes = git.bytes base commit
  | .diffQuiet base head, quiet => quiet = true → git.bytes base head = 0
  | _, _ => True

/-- A worker may fail, and stays as it is otherwise. -/
def Dispatch.Lasts (before after : Dispatch) : Prop :=
  after = before ∨ after = { before with phase := .failed }

/-- What can happen between two calls: time passes, workers fail or deliver their review and leave a
marker for it, markers are pruned, and the rows of other refs change.
-/
structure Elapses (before after : World) : Prop where
  clock : before.clock ≤ after.clock
  cursor : after.cursor key = before.cursor key
  unique : Unique Cursor.key before.rows → Unique Cursor.key after.rows
  dispatches : List.Forall₂ Dispatch.Lasts before.dispatches after.dispatches
  delivered : before.delivered ⊆ after.delivered
  done : ∀ range ∈ after.done, range ∈ before.done ∨ range ∈ after.delivered
  flags : after.flags = before.flags
  moves : after.moves = before.moves
  log : after.log = before.log

variable {key} {world before after : World}

theorem Elapses.refl (world : World) : Elapses key world world where
  clock := Int.le_refl _
  cursor := rfl
  unique := id
  dispatches := List.forall₂_same.mpr fun _ _ => .inl rfl
  delivered := List.Subset.refl _
  done := fun _ mem => .inl mem
  flags := rfl
  moves := rfl
  log := rfl

/-- A dispatch lasts on. -/
theorem Dispatch.Lasts.trans {first second third : Dispatch} (earlier : first.Lasts second)
    (later : second.Lasts third)
    : first.Lasts third := by
  rcases earlier with rfl | rfl
  · exact later
  · rcases later with rfl | rfl
    · exact .inr rfl
    · exact .inr rfl

/-- By induction on the dispatches. -/
theorem lasts_trans {first second third : List Dispatch}
    (earlier : List.Forall₂ Dispatch.Lasts first second)
    (later : List.Forall₂ Dispatch.Lasts second third)
    : List.Forall₂ Dispatch.Lasts first third := by
  induction earlier generalizing third with
  | nil => exact later
  | cons head tail ih =>
      cases later with
      | cons headLater tailLater => exact .cons (head.trans headLater) (ih tailLater)

theorem Elapses.trans {middle : World} (earlier : Elapses key before middle)
    (later : Elapses key middle after)
    : Elapses key before after where
  clock := Int.le_trans earlier.clock later.clock
  cursor := later.cursor.trans earlier.cursor
  unique := fun unique => later.unique (earlier.unique unique)
  dispatches := lasts_trans earlier.dispatches later.dispatches
  delivered := fun _ mem => later.delivered (earlier.delivered mem)
  done := by
    intro range mem
    rcases later.done range mem with still | isNew
    · exact (earlier.done range still).imp_right (fun delivered => later.delivered delivered)
    · exact .inr isNew
  flags := later.flags.trans earlier.flags
  moves := later.moves.trans earlier.moves
  log := later.log.trans earlier.log

/-- A statement is lost and changes nothing, or it moves the cursor. -/
theorem Verb.called (verb : Verb) (unique : Unique Cursor.key world.rows)
    : (verb.call key world.rows).1 = false ∧ (verb.call key world.rows).2 = world.rows
      ∨ (verb.call key world.rows).1 = true
        ∧ ∃ row,
            getCursor key (verb.call key world.rows).2 = some row
            ∧ Moves key verb (world.cursor key) row := by
  cases won : (verb.call key world.rows).1 with
  | false => exact .inl ⟨rfl, Verb.call_lost won⟩
  | true => exact .inr ⟨rfl, Verb.call_won unique won⟩

/-- No statement makes two rows of one ref. -/
theorem World.after_unique (unique : Unique Cursor.key world.rows) (query : Query)
    (answer : Answer query)
    : Unique Cursor.key (world.after key query answer).rows := by
  unfold World.after
  dsimp only
  split
  · exact Verb.call_unique unique
  · exact unique

theorem World.after_log (query : Query) (answer : Answer query) (other : query ≠ .getCursor)
    : (world.after key query answer).log = world.log ++ [⟨query, answer⟩] := by
  cases query <;> first | exact absurd rfl other | rfl

-- Ticks

/-- The worlds between the looks at a ref, each of which came to its end or was cut off. -/
inductive Ticks (setting : Setting Query Answer World) (config : Config) (start : World)
    : World → Prop
  | start : Ticks setting config start start
  | look {before after : World} {budget : Nat} {result : Option Nat}
    (earlier : Ticks setting config start before)
    (executes : (processRepo config budget).Executes setting before result after)
    : Ticks setting config start after

/-- What each look keeps, and what holds at every call, holds wherever the ticks come to. -/
theorem Ticks.invariant {setting : Setting Query Answer World} {config : Config} {start : World}
    {holds : World → Prop} (ticks : Ticks setting config start world) (initially : holds start)
    (keeps
      : ∀ budget world,
          holds world
          → (processRepo config budget).Ensures setting (fun _ later => holds later) world)
    (calls : ∀ world query, setting.permits world query → holds world)
    : holds world := by
  induction ticks with
  | start => exact initially
  | @look before after budget result _ executes ih =>
      rcases ((keeps budget before ih).executed executes).2 with ⟨query, permitted⟩ | ⟨_, holds⟩
      · exact calls after query permitted
      · exact holds

-- Scripts

/-- The ledger, the clock and the markers answer as they are, all others by the script. -/
def scripted (key : Key) (script : (query : Query) → Answer query) (world : World)
    : (query : Query) → Answer query
  | .getCursor => world.cursor key
  | .upsertBaseline head => ((Verb.upsertBaseline head world.clock).call key world.rows).1
  | .claimDispatch head staleBefore =>
      ((Verb.claimDispatch head staleBefore world.clock).call key world.rows).1
  | .releaseDispatch head => ((Verb.releaseDispatch head).call key world.rows).1
  | .forgiveTransient head => ((Verb.forgiveTransient head).call key world.rows).1
  | .advanceCursor head => ((Verb.advanceCursor head world.clock).call key world.rows).1
  | .skipTo head => ((Verb.skipTo head world.clock).call key world.rows).1
  | .markBlocked head maxAttempts =>
      ((Verb.markBlocked head maxAttempts world.clock).call key world.rows).1
  | .now => world.clock
  | .doneExists sha => world.done.any (fun range => range.tip = sha)
  | query => script query

/-- Answer by the script, as long as that is admitted. -/
def respond (key : Key) (script : (query : Query) → Answer query)
    (admits : World → (query : Query) → Answer query → Bool) (query : Query) (world : World)
    : Except Unit (Answer query × World) :=
  let answer := scripted key script world query
  if admits world query answer then .ok (answer, world.after key query answer) else .error ()

/-- One look after another, each after something has happened, and each with its script. -/
def lookAll (config : Config) (key : Key)
    (admits : World → (query : Query) → Answer query → Bool)
    : List ((World → World) × ((query : Query) → Answer query)) → World → Except Unit World
  | [], world => .ok world
  | (happens, script) :: later, world =>
      ((processRepo config 0).run (respond key script admits) (happens world)).bind
        fun looked => lookAll config key admits later looked.2

def endsWith (check : World → Bool) : Except Unit World → Bool
  | .ok world => check world
  | .error _ => false

section Scripts

variable {config : Config} {git : Git} {script : (query : Query) → Answer query}
  {admits : World → (query : Query) → Answer query → Bool} {setting : Setting Query Answer World}

theorem scripted_truthful
    (numstats
      : ∀ base commit columns,
          script (.diffNumstat base commit) = some columns
          → diffLines columns = git.lines base commit)
    (diffs
      : ∀ base commit bytes,
          script (.diff base commit) = some bytes → diffBytes bytes = git.bytes base commit)
    (quiets : ∀ base head, script (.diffQuiet base head) = true → git.bytes base head = 0)
    (query : Query)
    : Truthful git key world query (scripted key script world query) := by
  cases query with
  | doneExists sha =>
      intro found
      obtain ⟨range, mem, same⟩ := List.any_eq_true.mp found
      exact ⟨range, mem, of_decide_eq_true same⟩
  | diffNumstat base commit => exact numstats base commit
  | diff base commit => exact diffs base commit
  | diffQuiet base head => exact quiets base head
  | _ => first | rfl | trivial

/-- Scripted looks are ticks, by induction on the looks. -/
theorem Ticks.scripted {start : World}
    {looks : List ((World → World) × ((query : Query) → Answer query))}
    (earlier : Ticks setting config start before)
    (happens : ∀ look ∈ looks, ∀ world, setting.interferes world (look.1 world))
    (answers
      : ∀ look ∈ looks,
          ∀ query world,
            let answer := Controller.scripted key look.2 world query
            admits world query answer = true
            → setting.answers query world answer (world.after key query answer))
    {check : World → Bool}
    (ran : endsWith check (lookAll config key admits looks before) = true)
    : ∃ after, Ticks setting config start after ∧ check after = true := by
  induction looks generalizing before with
  | nil => exact ⟨before, earlier, ran⟩
  | cons look later ih =>
      unfold lookAll at ran
      cases looked : (processRepo config 0).run (respond key look.2 admits) (look.1 before) with
      | error error =>
          rw [looked] at ran
          cases ran
      | ok ended =>
          rw [looked] at ran
          have executes
              : (processRepo config 0).Executes setting (look.1 before) (some ended.1) ended.2 := by
            refine Executes.of_run ?_ looked
            intro query world answered responds
            unfold respond at responds
            dsimp only at responds
            split at responds
            · rename_i admitted
              cases responds
              exact answers look List.mem_cons_self query world admitted
            · cases responds
          have moved := happens look List.mem_cons_self before
          refine ih (.look earlier (executes.interfere moved)) ?_ ?_ ran
          · exact fun other mem => happens other (List.mem_cons_of_mem _ mem)
          · exact fun other mem => answers other (List.mem_cons_of_mem _ mem)

end Scripts

end Controller
