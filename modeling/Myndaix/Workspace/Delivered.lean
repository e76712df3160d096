import Myndaix.Workspace.Kept

/-! Over all workers and sweeps: the file that a done job names is neither removed nor overwritten,
unless a sweep takes the worktree of an attempt that has delivered its patch, or agents name the
files of others.
-/

namespace Workspace

open Interaction Interaction.Program Ledger
open Worker (Failure Query Answer Run)

variable {isWorkspaceActor : String → Bool} {worktreePath : Id → String} {id : Id}
  {before after : World} {state later : State}

-- What a call does

/-- Attempts are opened once, and stay closed. -/
structure Advances (before after : World) : Prop where
  closed
    : ∀ own endedAt,
        before.attempts own = some (.closed endedAt) → after.attempts own = some (.closed endedAt)
  opened : ∀ own, after.attempts own = none → before.attempts own = none

theorem Advances.refl (world : World) : Advances world world where
  closed _ _ there := there
  opened _ absent := absent

theorem advances_close (opened : before.attempts id = some .opened)
    : Advances before (before.closeAttempt id) where
  closed own endedAt there := by
    refine (Function.update_of_ne ?_ _ _).trans there
    rintro rfl
    rw [opened] at there
    cases there
  opened own absent := by
    by_cases same : own = id
    · rw [same] at absent
      cases (Function.update_self _ _ _).symm.trans absent
    · exact (Function.update_of_ne same _ _).symm.trans absent

/-- What a call of a worker can do, with the artifact that the agent names then. -/
inductive Change (worktreePath : Id → String) (id : Id) (before : World)
    : Option String → World → Prop where
  | quiet {artifactRef : Option String} {after : World}
    (delivered : after.delivered = before.delivered) (named : after.named = before.named)
    (files : after.files = before.files) (attempts : Advances before after)
    : Change worktreePath id before artifactRef after
  | ends {result : Result} {after : World} (undelivered : before.delivered id = none)
    (ends : Ends id before result after)
    : Change worktreePath id before result.artifactRef after
  | patch {artifactRef : Option String} {data : Option Content}
    (undelivered : before.delivered id = none)
    : Change worktreePath id before artifactRef (before.write (patchPath (worktreePath id)) data)
  | unlink {artifactRef : Option String} {path : String} (undelivered : before.delivered id = none)
    (own : Own worktreePath id before path)
    : Change worktreePath id before artifactRef (before.write path none)
  | complete {artifactRef : Option String} {recorded : Option String}
    (opened : before.attempts id = some .opened) (undelivered : before.delivered id = none)
    (own : ∀ path ∈ recorded, Own worktreePath id before path)
    : Change worktreePath id before artifactRef (before.complete id recorded)

theorem change_nothing {artifactRef : Option String}
    : Change worktreePath id before artifactRef before :=
  .quiet rfl rfl rfl (Advances.refl before)

theorem change_of_responds {query : Query} {answer : Answer query}
    (permitted : Permits worktreePath id before query)
    (responds : Responds worktreePath id query before answer after)
    : Change worktreePath id before (named ⟨query, answer⟩) after := by
  cases query with
  | createWorktree repoId baseRef own =>
      obtain ⟨there, _, rfl⟩ := responds
      exact .quiet rfl rfl rfl ⟨fun _ _ there => there, fun _ absent => absent⟩
  | invoke job =>
      cases answer with
      | ok result => exact .ends permitted responds
      | error error =>
          obtain rfl : after = before := responds
          exact change_nothing
  | waitAgent timeout =>
      cases answer with
      | none =>
          obtain rfl : after = before := responds
          exact change_nothing
      | some ended =>
          cases ended with
          | ok result => exact .ends permitted responds
          | error error =>
              obtain rfl : after = before := responds
              exact change_nothing
  | captureDiff worktree =>
      obtain ⟨rfl, undelivered⟩ := permitted
      cases answer with
      | error error =>
          rcases responds with rfl | ⟨data, rfl⟩
          · exact change_nothing
          · exact .patch undelivered
      | ok artifactRef =>
          cases artifactRef with
          | none =>
              obtain rfl : after = before := responds
              exact change_nothing
          | some path =>
              obtain ⟨rfl, data, rfl⟩ := responds
              exact .patch undelivered
  | completeAttempt own result =>
      obtain ⟨rfl, undelivered, owns⟩ := permitted
      cases answer with
      | ok _ =>
          obtain ⟨opened, rfl⟩ := responds
          exact .complete opened undelivered owns
      | error failure =>
          cases failure with
          | lostLease =>
              obtain rfl : after = before := responds
              exact change_nothing
          | other error =>
              rcases responds with rfl | ⟨opened, rfl⟩
              · exact change_nothing
              · exact .complete opened undelivered owns
  | failAttempt own result =>
      rcases responds with rfl | ⟨opened, rfl⟩
      · exact change_nothing
      · exact .quiet rfl rfl rfl (advances_close opened)
  | unlink path =>
      cases path with
      | none =>
          obtain rfl : after = before := responds
          exact change_nothing
      | some path =>
          rcases responds with rfl | rfl
          · exact change_nothing
          · exact .unlink permitted.1 permitted.2
  | cleanup repoId worktree =>
      obtain ⟨there, rfl⟩ := responds
      exact .quiet rfl rfl rfl ⟨fun _ _ there => there, fun _ absent => absent⟩
  | forever => exact responds.elim
  | leaseJob | getAttemptJob | startAgent | heartbeatAttempt | agentDone | cancelAgent | failFaulted
  | sleep =>
      obtain rfl : after = before := responds
      exact change_nothing

/-- The other attempts have delivered and named what they had before. -/
theorem Change.others {artifactRef : Option String}
    (change : Change worktreePath id before artifactRef after) {other : Id} (another : other ≠ id)
    : (surroundings worktreePath other).interferes before after := by
  cases change with
  | quiet delivered named _ _ => exact ⟨congrFun delivered other, congrFun named other⟩
  | ends undelivered ends =>
      obtain ⟨files, rfl, _⟩ := ends
      exact ⟨rfl, Function.update_of_ne another _ _⟩
  | patch undelivered => exact ⟨rfl, rfl⟩
  | unlink undelivered own => exact ⟨rfl, rfl⟩
  | complete opened undelivered own => exact ⟨Function.update_of_ne another _ _, rfl⟩

-- The invariant

/-- What is delivered is the attempt's own; named files are no patches, and have one attempt each; a
sweep reaps closed attempts, and unlinks no patch that is delivered.
-/
structure Tidy (worktreePath : Id → String) (world : World)
    (sweeps : Nat → Option Sweep) : Prop where
  owned
    : ∀ id path, world.delivered id = some (some path) → Own worktreePath id world path
  named
    : ∀ id path, world.named id = some path → ∀ other, path ≠ patchPath (worktreePath other)
  apart
    : ∀ first second path,
        world.named first = some path → world.named second = some path → first ≠ second
        → world.files path = none
  fresh : ∀ id, world.attempts id = none → world.delivered id = none
  reapable
    : ∀ number sweep id,
        sweeps number = some sweep → sweep.reapable id
        → ∃ endedAt, world.attempts id = some (.closed endedAt)
  unlinking
    : ∀ number sweep id,
        sweeps number = some sweep → sweep.unlinking = some id
        → (∃ endedAt, world.attempts id = some (.closed endedAt))
          ∧ world.delivered id ≠ some (some (patchPath (worktreePath id)))

/-- The workers keep their contracts in a tidy world. -/
structure Sound (worktreePath : Id → String) (state : State) : Prop where
  verified
    : Verified (surroundings worktreePath) (fun _ _ _ => True) state.running state.world
  tidy : Tidy worktreePath state.world state.sweeps

section Tidy

variable {sweeps : Nat → Option Sweep}

/-- Nothing but attempts, worktrees and the clock moves. -/
theorem Tidy.quiet (tidy : Tidy worktreePath before sweeps)
    (delivered : after.delivered = before.delivered) (named : after.named = before.named)
    (files : after.files = before.files) (advances : Advances before after)
    : Tidy worktreePath after sweeps where
  owned own path there := by
    rw [delivered] at there
    have owned := tidy.owned own path there
    unfold Own at owned ⊢
    rwa [named]
  named := by
    rw [named]
    exact tidy.named
  apart := by
    rw [named, files]
    exact tidy.apart
  fresh own absent := by
    rw [delivered]
    exact tidy.fresh own (advances.opened own absent)
  reapable number sweep own there reaps := by
    obtain ⟨endedAt, closed⟩ := tidy.reapable number sweep own there reaps
    exact ⟨endedAt, advances.closed own endedAt closed⟩
  unlinking number sweep own there unlinks := by
    obtain ⟨⟨endedAt, closed⟩, spared⟩ := tidy.unlinking number sweep own there unlinks
    rw [delivered]
    exact ⟨⟨endedAt, advances.closed own endedAt closed⟩, spared⟩

/-- An agent has come to its end and has named no patch and no file that another agent's is. -/
theorem Tidy.ends {result : Result} (tidy : Tidy worktreePath before sweeps)
    (undelivered : before.delivered id = none) (ends : Ends id before result after)
    (orderly
      : ∀ path ∈ result.artifactRef,
          (∀ other, path ≠ patchPath (worktreePath other))
          ∧ ∀ other ≠ id,
              before.named other = some path → before.files path = none ∧ after.files path = none)
    : Tidy worktreePath after sweeps := by
  obtain ⟨files, rfl, others⟩ := ends
  have named_self : (before.name id result.artifactRef).named id = result.artifactRef :=
    Function.update_self _ _ _
  have named_other {other : Id} (another : other ≠ id)
      : (before.name id result.artifactRef).named other = before.named other :=
    Function.update_of_ne another _ _
  refine ⟨fun own path there => ?_, fun own path there => ?_,
    fun first second path one two differ => ?_, tidy.fresh, tidy.reapable, tidy.unlinking⟩
  · have another : own ≠ id := by
      rintro rfl
      cases undelivered.symm.trans there
    rcases tidy.owned own path there with patch | names
    · exact .inl patch
    · exact .inr ((named_other another).trans names)
  · by_cases same : own = id
    · subst same
      exact (orderly path (named_self.symm.trans there)).1
    · exact tidy.named own path ((named_other same).symm.trans there)
  · by_cases own : result.artifactRef = some path
    · by_cases same : first = id
      · subst same
        exact ((orderly path own).2 second (Ne.symm differ)
          ((named_other (Ne.symm differ)).symm.trans two)).2
      · exact ((orderly path own).2 first same ((named_other same).symm.trans one)).2
    · have firstOther : first ≠ id := by
        rintro rfl
        exact own (named_self.symm.trans one)
      have secondOther : second ≠ id := by
        rintro rfl
        exact own (named_self.symm.trans two)
      exact (others path own).trans (tidy.apart first second path
        ((named_other firstOther).symm.trans one) ((named_other secondOther).symm.trans two) differ)

/-- A patch is written, or removed. -/
theorem Tidy.patch {data : Option Content} (tidy : Tidy worktreePath before sweeps) (own : Id)
    : Tidy worktreePath (before.write (patchPath (worktreePath own)) data) sweeps :=
  {
    tidy with
    apart := fun first second path one two differ =>
      (Function.update_of_ne (tidy.named first path one own) _ _).trans
        (tidy.apart first second path one two differ)
  }

theorem Tidy.unlink {path : String} (tidy : Tidy worktreePath before sweeps)
    : Tidy worktreePath (before.write path none) sweeps :=
  {
    tidy with
    apart := fun first second other one two differ => by
      by_cases same : other = path
      · subst same
        exact Function.update_self _ _ _
      · exact (Function.update_of_ne same _ _).trans
          (tidy.apart first second other one two differ)
  }

theorem Tidy.complete {recorded : Option String} (tidy : Tidy worktreePath before sweeps)
    (opened : before.attempts id = some .opened)
    (own : ∀ path ∈ recorded, Own worktreePath id before path)
    : Tidy worktreePath (before.complete id recorded) sweeps := by
  have advances := advances_close opened
  have delivered_self : (before.complete id recorded).delivered id = some recorded :=
    Function.update_self _ _ _
  have delivered_other {other : Id} (another : other ≠ id)
      : (before.complete id recorded).delivered other = before.delivered other :=
    Function.update_of_ne another _ _
  refine ⟨fun other path there => ?_, tidy.named, tidy.apart, fun other absent => ?_,
    fun number sweep other there reaps => ?_, fun number sweep other there unlinks => ?_⟩
  · by_cases same : other = id
    · subst same
      exact own path (Option.some.inj (delivered_self.symm.trans there))
    · exact tidy.owned other path ((delivered_other same).symm.trans there)
  · have unopened := advances.opened other absent
    have another : other ≠ id := by
      rintro rfl
      cases unopened.symm.trans opened
    exact (delivered_other another).trans (tidy.fresh other unopened)
  · obtain ⟨endedAt, closed⟩ := tidy.reapable number sweep other there reaps
    exact ⟨endedAt, advances.closed other endedAt closed⟩
  · obtain ⟨⟨endedAt, closed⟩, spared⟩ := tidy.unlinking number sweep other there unlinks
    have another : other ≠ id := by
      rintro rfl
      cases opened.symm.trans closed
    rw [delivered_other another]
    exact ⟨⟨endedAt, advances.closed other endedAt closed⟩, spared⟩

end Tidy

-- What a step keeps

/-- A done job stays done with its artifact, and the file of it stays as it is. -/
structure Preserves (before after : World) : Prop where
  delivered : ∀ id recorded, before.delivered id = some recorded
    → after.delivered id = some recorded
  files : KeepsDelivered before after

theorem Preserves.refl (world : World) : Preserves world world :=
  ⟨fun _ _ there => there, fun _ _ _ _ there => there⟩

theorem Preserves.trans {first second third : World} (early : Preserves first second)
    (late : Preserves second third)
    : Preserves first third where
  delivered id recorded there := late.delivered id recorded (early.delivered id recorded there)
  files id path data there stored :=
    late.files id path data (early.delivered id _ there) (early.files id path data there stored)

/-- Neither deliveries nor files move. -/
theorem preserves_quiet (delivered : after.delivered = before.delivered)
    (files : after.files = before.files)
    : Preserves before after where
  delivered id _ there := (congrFun delivered id).trans there
  files _ path _ _ stored := (congrFun files path).trans stored

theorem patchPath_inj {first second : String} (same : patchPath first = patchPath second)
    : first = second := by
  have chars := congrArg String.toList same
  unfold patchPath at chars
  rw [String.toList_append, String.toList_append] at chars
  exact String.toList_inj.mp (List.append_cancel_right chars)

section Preserves

variable {sweeps : Nat → Option Sweep}

/-- The patch of an attempt is delivered by no other. -/
theorem Tidy.patch_own (tidy : Tidy worktreePath before sweeps)
    (injective : Function.Injective worktreePath) {other : Id}
    (there : before.delivered id = some (some (patchPath (worktreePath other))))
    : other = id := by
  rcases tidy.owned id _ there with patch | names
  · exact injective (patchPath_inj patch)
  · exact absurd rfl (tidy.named id _ names other)

theorem Tidy.preserves_ends {result : Result} (tidy : Tidy worktreePath before sweeps)
    (undelivered : before.delivered id = none) (ends : Ends id before result after)
    (orderly
      : ∀ path ∈ result.artifactRef,
          (∀ other, path ≠ patchPath (worktreePath other))
          ∧ ∀ other ≠ id,
              before.named other = some path → before.files path = none ∧ after.files path = none)
    : Preserves before after := by
  obtain ⟨files, rfl, others⟩ := ends
  refine ⟨fun _ _ there => there, fun own path data there stored => ?_⟩
  by_cases names : result.artifactRef = some path
  · obtain ⟨unpatched, apart⟩ := orderly path names
    have another : own ≠ id := by
      rintro rfl
      cases undelivered.symm.trans there
    rcases tidy.owned own path there with patch | owns
    · exact absurd patch (unpatched own)
    · cases stored.symm.trans (apart own another owns).1
  · exact (others path names).trans stored

/-- Who has not delivered writes and removes its own patch. -/
theorem Tidy.preserves_patch {data : Option Content} (tidy : Tidy worktreePath before sweeps)
    (injective : Function.Injective worktreePath)
    (undelivered : before.delivered id ≠ some (some (patchPath (worktreePath id))))
    : Preserves before (before.write (patchPath (worktreePath id)) data) := by
  refine ⟨fun _ _ there => there, fun own path kept there stored => ?_⟩
  refine (Function.update_of_ne ?_ _ _).trans stored
  rintro rfl
  obtain rfl := tidy.patch_own injective there
  exact undelivered there

theorem Tidy.preserves_unlink {path : String} (tidy : Tidy worktreePath before sweeps)
    (injective : Function.Injective worktreePath) (undelivered : before.delivered id = none)
    (own : Own worktreePath id before path)
    : Preserves before (before.write path none) := by
  refine ⟨fun _ _ there => there, fun other file data there stored => ?_⟩
  refine (Function.update_of_ne ?_ _ _).trans stored
  rintro rfl
  have another : other ≠ id := by
    rintro rfl
    cases undelivered.symm.trans there
  rcases own with rfl | names
  · exact another (tidy.patch_own injective there).symm
  · rcases tidy.owned other file there with patch | owns
    · exact tidy.named id file names other patch
    · cases stored.symm.trans (tidy.apart other id file owns names another)

theorem preserves_complete {recorded : Option String} (undelivered : before.delivered id = none)
    : Preserves before (before.complete id recorded) := by
  refine ⟨fun other kept there => ?_, fun _ _ _ _ stored => stored⟩
  refine (Function.update_of_ne ?_ _ _).trans there
  rintro rfl
  cases undelivered.symm.trans there

/-- A call of a worker, by what it changes. -/
theorem Tidy.change {artifactRef : Option String} (tidy : Tidy worktreePath before sweeps)
    (injective : Function.Injective worktreePath)
    (change : Change worktreePath id before artifactRef after)
    (orderly
      : ∀ path ∈ artifactRef,
          (∀ other, path ≠ patchPath (worktreePath other))
          ∧ ∀ other ≠ id,
              before.named other = some path → before.files path = none ∧ after.files path = none)
    : Tidy worktreePath after sweeps ∧ Preserves before after := by
  cases change with
  | quiet delivered named files attempts =>
      exact ⟨tidy.quiet delivered named files attempts, preserves_quiet delivered files⟩
  | ends undelivered ends =>
      exact ⟨tidy.ends undelivered ends orderly, tidy.preserves_ends undelivered ends orderly⟩
  | patch undelivered =>
      refine ⟨tidy.patch id, tidy.preserves_patch injective ?_⟩
      rw [undelivered]
      nofun
  | unlink undelivered own =>
      exact ⟨tidy.unlink, tidy.preserves_unlink injective undelivered own⟩
  | complete opened undelivered own =>
      exact ⟨tidy.complete opened own, preserves_complete undelivered⟩

end Preserves

-- Steps and runs

section Run

/-- A sweep moves on, to closed attempts and an undelivered patch. -/
theorem Tidy.sweep {world : World} {sweeps : Nat → Option Sweep} {sweep : Option Sweep}
    (tidy : Tidy worktreePath world sweeps) (number : Nat)
    (reapable
      : ∀ moved ∈ sweep, ∀ id, moved.reapable id
          → ∃ endedAt, world.attempts id = some (.closed endedAt))
    (unlinking
      : ∀ moved ∈ sweep, ∀ id ∈ moved.unlinking,
          (∃ endedAt, world.attempts id = some (.closed endedAt))
          ∧ world.delivered id ≠ some (some (patchPath (worktreePath id))))
    : Tidy worktreePath world (Function.update sweeps number sweep) :=
  {
    tidy with
    reapable := fun other moved own there reaps => by
      by_cases same : other = number
      · subst same
        rw [Function.update_self] at there
        exact reapable moved there own reaps
      · rw [Function.update_of_ne same] at there
        exact tidy.reapable other moved own there reaps
    unlinking := fun other moved own there unlinks => by
      by_cases same : other = number
      · subst same
        rw [Function.update_self] at there
        exact unlinking moved there own unlinks
      · rw [Function.update_of_ne same] at there
        exact tidy.unlinking other moved own there unlinks
  }

theorem advances_lease (fresh : before.attempts id = none)
    : Advances before (before.openAttempt id) where
  closed own endedAt there := by
    refine (Function.update_of_ne ?_ _ _).trans there
    rintro rfl
    cases fresh.symm.trans there
  opened own absent := by
    by_cases same : own = id
    · rwa [same]
    · exact (Function.update_of_ne same _ _).symm.trans absent

/-- A step that meets the guard keeps the invariant and all that is delivered, by what the step is.
-/
theorem Sound.step {action : Action} (sound : Sound worktreePath state)
    (injective : Function.Injective worktreePath) (orderly : Orderly worktreePath state action)
    (step : Step isWorkspaceActor worktreePath state action later)
    : Sound worktreePath later ∧ Preserves state.world later.world := by
  obtain ⟨verified, tidy⟩ := sound
  cases step with
  | pass =>
      have advances : Advances state.world { state.world with now := state.world.now + 1 } :=
        ⟨fun _ _ there => there, fun _ absent => absent⟩
      exact ⟨⟨verified.interfere fun _ => ⟨rfl, rfl⟩, tidy.quiet rfl rfl rfl advances⟩,
        preserves_quiet rfl rfl⟩
  | @lease id heartbeatInterval rounds fresh =>
      have kept
          : Verified (surroundings worktreePath) (fun _ _ _ => True) state.running
              (state.world.openAttempt id) :=
        verified.interfere fun _ => ⟨rfl, rfl⟩
      have begins := @processAttempt_ensures worktreePath id (state.world.openAttempt id)
        isWorkspaceActor heartbeatInterval rounds (tidy.fresh id fresh)
      exact ⟨⟨kept.start begins, tidy.quiet rfl rfl rfl (advances_lease fresh)⟩,
        preserves_quiet rfl rfl⟩
  | @call id query answer after next asks responds =>
      obtain ⟨permitted, continues⟩ := verified.call asks
      have change := change_of_responds permitted responds
      obtain ⟨kept, preserves⟩ := tidy.change injective change orderly
      exact ⟨⟨continues answer responds fun other another => change.others another,
        kept⟩, preserves⟩
  | @stop id => exact ⟨⟨verified.stop id, tidy⟩, Preserves.refl _⟩
  | @close id opened =>
      exact ⟨⟨verified.interfere fun _ => ⟨rfl, rfl⟩,
        tidy.quiet rfl rfl rfl (advances_close opened)⟩, preserves_quiet rfl rfl⟩
  | @sweep number idle =>
      refine ⟨⟨verified, tidy.sweep number ?_ ?_⟩, Preserves.refl _⟩
      · intro moved mem id reaps
        cases mem
        have reaps : state.world.reapable id = true := reaps
        unfold World.reapable at reaps
        split at reaps
        · next endedAt closed => exact ⟨endedAt, closed⟩
        · cases reaps
      · intro moved mem id unlinks
        cases mem
        cases unlinks
  | @sweepWorktree number id reapable there sweeps reaps found =>
      have idle
          : Tidy worktreePath (state.world.setWorktree (worktreePath id) there) state.sweeps :=
        tidy.quiet rfl rfl rfl ⟨fun _ _ there => there, fun _ absent => absent⟩
      refine ⟨⟨verified.interfere fun _ => ⟨rfl, rfl⟩, idle.sweep number ?_ ?_⟩,
        preserves_quiet rfl rfl⟩
      · intro moved mem own reaped
        cases mem
        exact tidy.reapable number _ own sweeps reaped
      · intro moved mem own unlinks
        cases mem
        cases unlinks
        exact ⟨tidy.reapable number _ id sweeps reaps, orderly⟩
  | @sweepPatch number id reapable data sweeps unlinked =>
      obtain ⟨_, spared⟩ := tidy.unlinking number _ id sweeps rfl
      refine ⟨⟨verified.interfere fun _ => ⟨rfl, rfl⟩, (tidy.patch id).sweep number ?_ ?_⟩,
        tidy.preserves_patch injective spared⟩
      · intro moved mem own reaped
        cases mem
        exact tidy.reapable number _ own sweeps reaped
      · intro moved mem own unlinks
        cases mem
        cases unlinks
  | @sweepStop number =>
      refine ⟨⟨verified, tidy.sweep number ?_ ?_⟩, Preserves.refl _⟩ <;>
        intro moved mem <;>
        cases mem

theorem State.Fresh.sound (fresh : state.Fresh) : Sound worktreePath state where
  verified id program runs := by
    rw [fresh.running id] at runs
    cases runs
  tidy := {
    owned := fun id path there => by
      rw [fresh.delivered id] at there
      cases there
    named := fun id path there => by
      rw [fresh.named id] at there
      cases there
    apart := fun first second path there => by
      rw [fresh.named first] at there
      cases there
    fresh := fun id _ => fresh.delivered id
    reapable := fun number sweep id there => by
      rw [fresh.sweeps number] at there
      cases there
    unlinking := fun number sweep id there => by
      rw [fresh.sweeps number] at there
      cases there
  }

/-- By induction on the run. -/
theorem Reaches.sound (injective : Function.Injective worktreePath)
    (reaches : Reaches isWorkspaceActor worktreePath (Orderly worktreePath) state)
    : Sound worktreePath state := by
  induction reaches with
  | start fresh => exact fresh.sound
  | step _ allowed step induction => exact (induction.step injective allowed step).1

/-- As long as no sweep finds the worktree of an attempt that has delivered its patch, and no agent
names a patch or another's file: no patch is delivered but by its own attempt, and whatever is
delivered stays on disk as it is.
-/
theorem delivered_preserved (injective : Function.Injective worktreePath)
    (reaches : Reaches isWorkspaceActor worktreePath (Orderly worktreePath) state)
    : (∀ id other,
        state.world.delivered id = some (some (patchPath (worktreePath other))) → other = id)
      ∧ ∀ later,
          Relation.ReflTransGen
            (fun before after =>
              ∃ action,
                Orderly worktreePath before action
                ∧ Step isWorkspaceActor worktreePath before action after)
            state later
          → Preserves state.world later.world := by
  refine ⟨fun id other => (reaches.sound injective).tidy.patch_own injective, fun later leads => ?_⟩
  suffices both
      : Reaches isWorkspaceActor worktreePath (Orderly worktreePath) later
        ∧ Preserves state.world later.world from both.2
  induction leads with
  | refl => exact ⟨reaches, Preserves.refl _⟩
  | tail _ moved induction =>
      obtain ⟨reached, preserved⟩ := induction
      obtain ⟨action, orderly, step⟩ := moved
      exact ⟨reached.step orderly step,
        preserved.trans ((reached.sound injective).step injective orderly step).2⟩

-- A killed worker

def sampleTree (id : Id) : String :=
  "/wt-" ++ String.ofList (List.replicate id '0')

def sampleJob : Worker.Job :=
  ⟨"builder", some "app", none⟩

def sampleWorld : World where
  now := 0
  attempts := fun _ => none
  delivered := fun _ => none
  named := fun _ => none
  files := fun _ => none
  worktrees := fun _ => false

def sampleStart : State :=
  ⟨sampleWorld, fun _ => none, fun _ => none⟩

def finished : Result :=
  ⟨.ok, "done", none, none⟩

def patched : Result :=
  ⟨.ok, "done", none, some (patchPath (sampleTree 0))⟩

theorem sampleTree_injective : Function.Injective sampleTree := by
  intro first second same
  have chars := congrArg (List.length ∘ String.toList) same
  simpa [sampleTree] using chars

/-- A call whose answer names no file meets the guard. -/
theorem Reaches.calls {id : Id} {state : State} {query : Query} {answer : Answer query}
    {after : World} {next : Answer query → Run (Except Failure (Option ResultStatus))}
    (reaches : Reaches (fun _ => true) sampleTree (Orderly sampleTree) state)
    (asks : state.running id = some (.call query next))
    (responds : Responds sampleTree id query state.world answer after)
    (unnamed : named ⟨query, answer⟩ = none)
    : Reaches (fun _ => true) sampleTree (Orderly sampleTree)
        {
          state with
          world := after
          running := Function.update state.running id (some (next answer))
        } := by
  have orderly : Orderly sampleTree state (.call id ⟨query, answer⟩ after) := by
    intro path mem
    rw [unnamed] at mem
    cases mem
  exact reaches.step orderly (.call asks responds)

theorem sample_delivers
    : ∃ state, Reaches (fun _ => true) sampleTree (Orderly sampleTree) state
      ∧ state.world.delivered 0 = some (some (patchPath (sampleTree 0)))
      ∧ state.world.files (patchPath (sampleTree 0)) = some [1]
      ∧ state.world.worktrees (sampleTree 0) = true
      ∧ state.world.attempts 0 = some (.closed 0)
      ∧ state.world.now = 0
      ∧ state.sweeps = fun _ => none := by
  have start : Reaches (fun _ => true) sampleTree (Orderly sampleTree) sampleStart :=
    .start ⟨fun _ => rfl, fun _ => rfl, fun _ => rfl, fun _ => rfl, fun _ => rfl⟩
  have leased : Reaches (fun _ => true) sampleTree (Orderly sampleTree) _ :=
    @Reaches.step _ _ _ _ _ (.lease 0 none 0) start trivial (.lease rfl)
  have found := @Reaches.calls 0 _ (.getAttemptJob 0) (.ok (some sampleJob)) _ _ leased rfl rfl rfl
  have created := @Reaches.calls 0 _ (.createWorktree "app" "HEAD" 0) (.ok ()) _ _ found rfl
    ⟨true, fun _ => rfl, rfl⟩ rfl
  have ended := @Reaches.calls 0 _ (.invoke sampleJob) (.ok finished) _ _ created rfl
    ⟨_, rfl, fun _ _ => rfl⟩ rfl
  have captured := @Reaches.calls 0 _ (.captureDiff (sampleTree 0))
    (.ok (some (patchPath (sampleTree 0)))) _ _ ended rfl ⟨rfl, [1], rfl⟩ rfl
  have completed := @Reaches.calls 0 _ (.completeAttempt 0 patched) (.ok ()) _ _ captured rfl
    ⟨rfl, rfl⟩ rfl
  exact ⟨_, completed, rfl, rfl, rfl, rfl, rfl, rfl⟩

/-- The delivered patch is still there when the process is killed behind the commit. -/
theorem delivered_preserved_killed
    : ∃ state later : State,
        Reaches (fun _ => true) sampleTree (Orderly sampleTree) state
        ∧ state.world.delivered 0 = some (some (patchPath (sampleTree 0)))
        ∧ Step (fun _ => true) sampleTree state (.stop 0) later
        ∧ later.running 0 = none
        ∧ later.world.delivered 0 = some (some (patchPath (sampleTree 0)))
        ∧ later.world.files (patchPath (sampleTree 0)) = some [1] := by
  obtain ⟨state, reaches, delivered, stored, _⟩ := sample_delivers
  have kept := (delivered_preserved sampleTree_injective reaches).2 _
    (.single ⟨.stop 0, trivial, .stop⟩)
  exact ⟨state, _, reaches, delivered, .stop, rfl, kept.delivered 0 _ delivered,
    kept.files 0 _ _ delivered stored⟩

theorem Reaches.weaken {isWorkspaceActor : String → Bool} {worktreePath : Id → String}
    {guard loose : State → Action → Prop} {state : State}
    (reaches : Reaches isWorkspaceActor worktreePath guard state)
    (weaker : ∀ state action, guard state action → loose state action)
    : Reaches isWorkspaceActor worktreePath loose state := by
  induction reaches with
  | start fresh => exact .start fresh
  | step _ allowed step induction => exact induction.step (weaker _ _ allowed) step

/-- Time passes, by induction on how much. -/
theorem Reaches.passes {isWorkspaceActor : String → Bool} {worktreePath : Id → String}
    {state : State} (reaches : Reaches isWorkspaceActor worktreePath (fun _ _ => True) state)
    (seconds : Nat)
    : Reaches isWorkspaceActor worktreePath (fun _ _ => True)
        { state with world := { state.world with now := state.world.now + seconds } } := by
  induction seconds with
  | zero => exact reaches
  | succ seconds induction => exact induction.step trivial .pass

/-- The worker is killed behind its commit; two minutes later a sweep finds the worktree and unlinks
the patch that the done job names.
-/
theorem delivered_patch_swept
    : ¬ ∀ state action later,
          Reaches (fun _ => true) sampleTree (fun _ _ => True) state
          → Step (fun _ => true) sampleTree state action later
          → KeepsDelivered state.world later.world := by
  intro claim
  obtain ⟨state, reaches, delivered, stored, there, closed, now, idle⟩ := sample_delivers
  have killed : Reaches (fun _ => true) sampleTree (fun _ _ => True) _ :=
    (reaches.weaken fun _ _ _ => trivial).step trivial (@Step.stop _ _ _ 0)
  have waited := killed.passes LEASE_SECONDS
  have swept := waited.step trivial (@Step.sweep _ _ _ 0 (congrFun idle 0))
  have reaps
      : World.reapable { state.world with now := state.world.now + LEASE_SECONDS } 0 = true := by
    unfold World.reapable
    simp only [closed, now, Nat.zero_add]
    decide
  have collected := swept.step trivial
    (@Step.sweepWorktree _ _ _ 0 0 _ false rfl reaps there)
  have kept
      : Function.update state.world.files (patchPath (sampleTree 0)) none (patchPath (sampleTree 0))
        = some [1] :=
    claim _ _ _ collected (@Step.sweepPatch _ _ _ 0 0 _ none rfl (.inl rfl)) 0 _ [1]
      delivered stored
  rw [Function.update_self] at kept
  cases kept
end Run

end Workspace
