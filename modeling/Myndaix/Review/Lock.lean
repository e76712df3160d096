import Mathlib.Logic.Function.Basic
import Myndaix.Systems.Machine

/-! The review lock of one repository: a directory that a worker makes, marks with its pid and
removes when it exits, and that a later worker evicts once it is older than the staleness limit.

Workers are named by their pid, which may run again once its process is gone. Time is in seconds,
as `date +%s` and `stat -f %m` give it.
-/

namespace Review

open Systems

-- The lock directory and the commands of a worker

/-- A success of `mkdir`: which one it is, whose, and when. -/
structure Making (Pid : Type) where
  number : Nat
  maker : Pid
  since : Nat
deriving DecidableEq

/-- The lock directory. Which `mkdir` made it is not on disk: no command reads it. -/
structure LockDir (Pid : Type) where
  made : Making Pid
  mtime : Nat
  pid : Option Pid
deriving DecidableEq

/-- The command that a worker is about to run, with the shell variables it needs. -/
inductive Stage (Pid : Type) where
  /-- No process has this pid. -/
  | away
  /-- `mkdir "$lock"`. -/
  | arriving
  /-- `now="$(date +%s)"`. -/
  | refused
  /-- `stat -f %m "$lock"`, and the test against `STALE`. -/
  | dated (now : Nat)
  /-- `rm -rf "$lock"` of the lock that the test found stale. -/
  | judged (stale : Making Pid)
  /-- The second `mkdir "$lock"`. -/
  | evicted
  /-- `printf '%s' "$$" > "$lock/pid"`. -/
  | made (making : Making Pid)
  /-- `rm -rf "$lock"` after the pid could not be written. -/
  | unmarked (making : Making Pid)
  /-- The review, until the exit trap's `cat "$lock/pid"`. -/
  | holding (making : Making Pid)
  /-- `rm -rf "$lock"` of the exit trap. -/
  | releasing (making : Making Pid)
deriving DecidableEq

/-- The lock that a worker is past. -/
def Stage.held {Pid : Type} : Stage Pid → Option (Making Pid)
  | .made making => some making
  | .unmarked making => some making
  | .holding making => some making
  | .releasing making => some making
  | _ => none

/-- The lock that a worker is about to evict. -/
def Stage.stale {Pid : Type} : Stage Pid → Option (Making Pid)
  | .judged making => some making
  | _ => none

structure LockState (Pid : Type) where
  now : Nat
  lock : Option (LockDir Pid)
  stage : Pid → Stage Pid
  makings : Nat

/-- What can happen next: a worker starts, its next command succeeds or fails, its process is
killed, or time passes.
-/
inductive LockAction (Pid : Type) where
  | start (worker : Pid)
  | proceed (worker : Pid)
  | fail (worker : Pid)
  | kill (worker : Pid)
  | pass (seconds : Nat)

namespace LockState

variable {Pid : Type} [DecidableEq Pid]

def setStage (state : LockState Pid) (worker : Pid) (stage : Stage Pid) : LockState Pid :=
  { state with stage := Function.update state.stage worker stage }

/-- `mkdir "$lock"`, which goes on as the other stage if the directory is there already. -/
def mkdir (state : LockState Pid) (worker : Pid) (otherwise : Stage Pid) : LockState Pid :=
  match state.lock with
  | some _ => state.setStage worker otherwise
  | none =>
      let making : Making Pid := ⟨state.makings, worker, state.now⟩
      {
        state.setStage worker (.made making) with
        lock := some ⟨making, state.now, none⟩,
        makings := state.makings + 1
      }

/-- `rm -rf "$lock"`. -/
def remove (state : LockState Pid) (worker : Pid) (next : Stage Pid) : LockState Pid :=
  { state.setStage worker next with lock := none }

/-- `printf '%s' "$$" > "$lock/pid"`: a new entry touches the directory, a rewrite does not. -/
def writePid (state : LockState Pid) (worker : Pid) (making : Making Pid) : LockState Pid :=
  match state.lock with
  | none => state.setStage worker (.unmarked making)
  | some dir =>
      let mtime := if dir.pid.isSome then dir.mtime else state.now
      {
        state.setStage worker (.holding making) with
        lock := some { dir with pid := some worker, mtime := mtime }
      }

/-- The staleness test. A `stat` that fails counts as the time just read. -/
def judge (stale : Nat) (state : LockState Pid) (worker : Pid) (now : Nat) : LockState Pid :=
  match state.lock with
  | none => state.setStage worker .away
  | some dir =>
      if stale < now - dir.mtime then state.setStage worker (.judged dir.made)
      else state.setStage worker .away

/-- The ownership test of `release_lock`. -/
def checkPid (state : LockState Pid) (worker : Pid) (making : Making Pid) : LockState Pid :=
  if state.lock.bind LockDir.pid = some worker then state.setStage worker (.releasing making)
  else state.setStage worker .away

/-- The next command of a worker succeeds. -/
def proceed (stale : Nat) (state : LockState Pid) (worker : Pid) : Option (LockState Pid) :=
  match state.stage worker with
  | .away => none
  | .arriving => some (state.mkdir worker .refused)
  | .refused => some (state.setStage worker (.dated state.now))
  | .dated now => some (state.judge stale worker now)
  | .judged _ => some (state.remove worker .evicted)
  | .evicted => some (state.mkdir worker .away)
  | .made making => some (state.writePid worker making)
  | .unmarked _ => some (state.remove worker .away)
  | .holding making => some (state.checkPid worker making)
  | .releasing _ => some (state.remove worker .away)

/-- The next command of a worker fails, and the script goes on as it does after a failure. -/
def fail (state : LockState Pid) (worker : Pid) : Option (LockState Pid) :=
  match state.stage worker with
  | .away => none
  | .refused => none
  | .arriving => some (state.setStage worker .refused)
  | .judged _ => some (state.setStage worker .evicted)
  | .made making => some (state.setStage worker (.unmarked making))
  | _ => some (state.setStage worker .away)

end LockState

variable {Pid : Type} [DecidableEq Pid]

/-- The workers of one repository and its lock. -/
def lockMachine (stale : Nat) : Machine (LockState Pid) (LockAction Pid) where
  initial state := state.lock = none ∧ ∀ worker, state.stage worker = .away
  step
    | .start worker, state =>
        if state.stage worker = .away then some (state.setStage worker .arriving) else none
    | .proceed worker, state => state.proceed stale worker
    | .fail worker, state => state.fail worker
    | .kill worker, state => some (state.setStage worker .away)
    | .pass seconds, state => some { state with now := state.now + seconds }

-- What is asked of the lock

/-- No two workers are past the lock. -/
def LockState.Exclusive (state : LockState Pid) : Prop :=
  ∀ first second,
    (state.stage first).held.isSome
    → (state.stage second).held.isSome
    → first = second

/-- What a worker is about to remove as its own is its own. -/
def LockState.OwnRelease (state : LockState Pid) : Prop :=
  ∀ worker making,
    state.stage worker = .releasing making ∨ state.stage worker = .unmarked making
    → ∀ dir ∈ state.lock, dir.made = making ∧ making.maker = worker

/-- No worker is past the lock for longer than the staleness limit. -/
def Prompt (stale : Nat) (state : LockState Pid) : LockAction Pid → Prop
  | .pass seconds =>
      ∀ worker,
        ∀ making ∈ (state.stage worker).held, state.now + seconds ≤ making.since + stale
  | _ => True

/-- An eviction meets the directory that was found stale, or none: nobody has evicted it and
made the lock again since the test.
-/
def Undisturbed (state : LockState Pid) : LockAction Pid → Prop
  | .proceed worker =>
      ∀ making ∈ (state.stage worker).stale, ∀ dir ∈ state.lock, dir.made = making
  | _ => True

-- The invariant

/-- Whoever is past the lock owns the directory, a stale lock is not the lock of a worker that
is past it, and no clock reading is ahead of the clock.
-/
structure LockState.Owned (stale : Nat) (state : LockState Pid) : Prop where
  owns
    : ∀ worker,
        ∀ making ∈ (state.stage worker).held,
          making.maker = worker ∧ ∃ dir ∈ state.lock, dir.made = making
  numbered : ∀ dir ∈ state.lock, dir.made.number < state.makings
  touched
    : ∀ dir ∈ state.lock, dir.made.since ≤ dir.mtime ∧ dir.made.since ≤ state.now
  prompt
    : ∀ worker, ∀ making ∈ (state.stage worker).held, state.now ≤ making.since + stale
  read : ∀ worker now, state.stage worker = .dated now → now ≤ state.now
  past
    : ∀ worker making,
        state.stage worker = .judged making
        → making.number < state.makings
          ∧ ∀ other, making ∉ (state.stage other).held

variable {making : Making Pid}

namespace LockState

variable {stale : Nat} {state : LockState Pid} {worker : Pid} {next : Stage Pid}

@[simp] theorem setStage_lock : (state.setStage worker next).lock = state.lock := rfl

@[simp] theorem setStage_now : (state.setStage worker next).now = state.now := rfl

@[simp] theorem setStage_makings : (state.setStage worker next).makings = state.makings := rfl

/-- Who did not act stays where it was. -/
theorem setStage_stage (other : Pid)
    : (state.setStage worker next).stage other
      = if other = worker then next else state.stage other := by
  simp [setStage, Function.update_apply]

/-- A worker that goes on past no lock but the one it was past. -/
theorem held_setStage (same : ∀ making ∈ next.held, making ∈ (state.stage worker).held)
    {other : Pid} (held : making ∈ ((state.setStage worker next).stage other).held)
    : making ∈ (state.stage other).held := by
  rw [setStage_stage] at held
  split at held
  · rename_i own
    exact own ▸ same making held
  · exact held

omit [DecidableEq Pid] in
/-- With the invariant, workers past the lock are past the same directory, which has one maker.
-/
theorem Owned.unique (owned : state.Owned stale) {first second : Pid} {one other : Making Pid}
    (hf : one ∈ (state.stage first).held) (hs : other ∈ (state.stage second).held)
    : first = second := by
  obtain ⟨own, dir, there, made⟩ := owned.owns first one hf
  obtain ⟨own', dir', there', made'⟩ := owned.owns second other hs
  have same : dir = dir' := Option.some.inj (there.symm.trans there')
  subst same
  rw [← own, ← own', ← made, ← made']

/-- A worker that takes nothing changes nothing that is owned. -/
theorem Owned.setStage (owned : state.Owned stale)
    (same : ∀ making ∈ next.held, making ∈ (state.stage worker).held)
    (read : ∀ now, next = .dated now → now ≤ state.now)
    (past
      : ∀ making,
          next = .judged making
          → making.number < state.makings ∧ ∀ other, making ∉ (state.stage other).held)
    : (state.setStage worker next).Owned stale where
  owns other making held := owned.owns other making (held_setStage same held)
  numbered := owned.numbered
  touched := owned.touched
  prompt other making held := owned.prompt other making (held_setStage same held)
  read other now dated := by
    rw [setStage_stage] at dated
    split at dated
    · exact read now dated
    · exact owned.read other now dated
  past other making judged := by
    have before : making.number < state.makings
        ∧ ∀ other, making ∉ (state.stage other).held := by
      rw [setStage_stage] at judged
      split at judged
      · exact past making judged
      · exact owned.past other making judged
    exact ⟨before.1, fun other held => before.2 other (held_setStage same held)⟩

/-- A worker that neither is past the lock next nor has read or judged anything. -/
theorem Owned.idle (owned : state.Owned stale)
    (idle : next = .away ∨ next = .arriving ∨ next = .refused ∨ next = .evicted)
    : (state.setStage worker next).Owned stale := by
  rcases idle with rfl | rfl | rfl | rfl
  all_goals exact owned.setStage (by simp [Stage.held]) (by simp) (by simp)

/-- The lock can be removed when no other worker is past it. -/
theorem Owned.remove (owned : state.Owned stale)
    (idle : next = .away ∨ next = .evicted)
    (alone : ∀ other, other ≠ worker → (state.stage other).held = none)
    : (state.remove worker next).Owned stale := by
  have kept : (state.setStage worker next).Owned stale :=
    owned.idle (idle.elim Or.inl fun evicted => Or.inr (Or.inr (Or.inr evicted)))
  have none_held (other : Pid) : ((state.setStage worker next).stage other).held = none := by
    rw [setStage_stage]
    split
    · rcases idle with rfl | rfl <;> rfl
    · rename_i another
      exact alone other another
  exact {
    owns := fun other making held => by simp [LockState.remove, none_held] at held
    numbered := fun _ there => by cases there
    touched := fun _ there => by cases there
    prompt := kept.prompt
    read := kept.read
    past := kept.past
  }

omit [DecidableEq Pid] in
/-- Nobody is past a lock that is not there. -/
theorem Owned.absent (owned : state.Owned stale) (absent : state.lock = none) (other : Pid)
    : (state.stage other).held = none := by
  cases found : (state.stage other).held with
  | none => rfl
  | some making =>
      obtain ⟨_, dir, there, _⟩ := owned.owns other making found
      rw [absent] at there
      cases there

/-- A new directory is its maker's. -/
theorem Owned.mkdir (owned : state.Owned stale)
    (idle : next = .away ∨ next = .refused)
    : (state.mkdir worker next).Owned stale := by
  unfold LockState.mkdir
  cases found : state.lock with
  | some dir => exact owned.idle (idle.elim Or.inl fun refused => Or.inr (Or.inr (Or.inl refused)))
  | none =>
      have absent := owned.absent found
      have fresh {other : Pid} {making : Making Pid}
          (held
            : making
              ∈ ((state.setStage worker (.made ⟨state.makings, worker, state.now⟩)).stage
                  other).held)
          : other = worker ∧ making = ⟨state.makings, worker, state.now⟩ := by
        rw [setStage_stage] at held
        split at held
        · exact ⟨‹_›, (Option.some.inj held).symm⟩
        · rw [absent other] at held
          cases held
      exact {
        owns := fun other making held => by
          obtain ⟨rfl, rfl⟩ := fresh held
          exact ⟨rfl, _, rfl, rfl⟩
        numbered := fun dir there => by
          cases there
          exact Nat.lt_succ_self _
        touched := fun dir there => by
          cases there
          exact ⟨Nat.le_refl _, Nat.le_refl _⟩
        prompt := fun other making held => by
          obtain ⟨rfl, rfl⟩ := fresh held
          exact Nat.le_add_right _ _
        read := fun other now dated => by
          simp only [setStage_stage] at dated
          split at dated
          · cases dated
          · exact owned.read other now dated
        past := fun other making judged => by
          simp only [setStage_stage] at judged
          split at judged
          · cases judged
          · obtain ⟨old, _⟩ := owned.past other making judged
            refine ⟨Nat.lt_succ_of_lt old, fun holder held => ?_⟩
            -- The new lock has a number of its own, so it is none that was judged.
            obtain ⟨_, rfl⟩ := fresh held
            exact Nat.lt_irrefl _ old
      }

/-- The pid is written into the own directory. -/
theorem Owned.writePid (owned : state.Owned stale) (standing : state.stage worker = .made making)
    : (state.writePid worker making).Owned stale := by
  have held : making ∈ (state.stage worker).held := by simp [standing, Stage.held]
  have kept : (state.setStage worker (.holding making)).Owned stale :=
    owned.setStage (by simp [Stage.held, standing]) (by simp) (by simp)
  obtain ⟨_, dir, there, made⟩ := owned.owns worker making held
  have found : state.lock = some dir := there
  simp only [LockState.writePid, found]
  exact {
    owns := fun other making held => by
      obtain ⟨own, dir', there', made'⟩ := kept.owns other making held
      have same : dir = dir' := Option.some.inj (there.symm.trans there')
      subst same
      exact ⟨own, _, rfl, made'⟩
    numbered := fun dir' there' => by
      cases there'
      exact owned.numbered dir there
    touched := fun dir' there' => by
      cases there'
      obtain ⟨before, sofar⟩ := owned.touched dir there
      refine ⟨?_, sofar⟩
      dsimp only
      split
      · exact before
      · exact sofar
    prompt := kept.prompt
    read := kept.read
    past := kept.past
  }

/-- An old lock is judged by the clock. -/
theorem Owned.judge (owned : state.Owned stale) {now : Nat}
    (dated : state.stage worker = .dated now)
    : (state.judge stale worker now).Owned stale := by
  unfold LockState.judge
  have read := owned.read worker now dated
  cases found : state.lock with
  | none => exact owned.idle (Or.inl rfl)
  | some dir =>
      have there : dir ∈ state.lock := found
      dsimp only
      split
      · rename_i old
        refine owned.setStage (by simp [Stage.held]) (by simp) (fun making judged => ?_)
        cases judged
        refine ⟨owned.numbered dir there, fun other held => ?_⟩
        -- A worker past this lock would have been past it for longer than the limit.
        have prompt := owned.prompt other dir.made held
        have touched := (owned.touched dir there).1
        omega
      · exact owned.idle (Or.inl rfl)

/-- The pid is read before the release. -/
theorem Owned.checkPid (owned : state.Owned stale) (held : state.stage worker = .holding making)
    : (state.checkPid worker making).Owned stale := by
  unfold LockState.checkPid
  split
  · exact owned.setStage (by simp [Stage.held, held]) (by simp) (by simp)
  · exact owned.idle (Or.inl rfl)

/-- A worker that removes what it is past leaves no other past it. -/
theorem Owned.drop (owned : state.Owned stale) (held : making ∈ (state.stage worker).held)
    : (state.remove worker .away).Owned stale := by
  refine owned.remove (Or.inl rfl) (fun other another => ?_)
  cases found : (state.stage other).held with
  | none => rfl
  | some own => exact absurd (owned.unique found held) another

/-- An eviction of what was found stale takes no lock from a worker that is past it. -/
theorem Owned.evict (owned : state.Owned stale) (judged : state.stage worker = .judged making)
    (undisturbed : ∀ dir ∈ state.lock, dir.made = making)
    : (state.remove worker .evicted).Owned stale := by
  refine owned.remove (Or.inr rfl) (fun other _ => ?_)
  cases found : (state.stage other).held with
  | none => rfl
  | some own =>
      obtain ⟨_, dir, there, made⟩ := owned.owns other own found
      have stale : own = making := made.symm.trans (undisturbed dir there)
      subst stale
      exact absurd found ((owned.past worker own judged).2 other)

/-- Each step of a worker keeps the lock owned. -/
theorem Owned.proceed (owned : state.Owned stale) {later : LockState Pid}
    (undisturbed : Undisturbed state (.proceed worker))
    (taken : state.proceed stale worker = some later)
    : later.Owned stale := by
  unfold LockState.proceed at taken
  split at taken
  all_goals cases taken
  · exact owned.mkdir (Or.inr rfl)
  · exact owned.setStage (by simp [Stage.held]) (by simp) (by simp)
  · exact owned.judge ‹_›
  · rename_i judged
    exact owned.evict judged (undisturbed _ (by simp [judged, Stage.stale]))
  · exact owned.mkdir (Or.inl rfl)
  · exact owned.writePid ‹_›
  · rename_i making standing
    have held : making ∈ (state.stage worker).held := by simp [standing, Stage.held]
    exact owned.drop held
  · exact owned.checkPid ‹_›
  · rename_i making standing
    have held : making ∈ (state.stage worker).held := by simp [standing, Stage.held]
    exact owned.drop held

/-- So does a step that fails. -/
theorem Owned.fail (owned : state.Owned stale) {later : LockState Pid}
    (taken : state.fail worker = some later)
    : later.Owned stale := by
  unfold LockState.fail at taken
  split at taken
  all_goals cases taken
  · exact owned.idle (Or.inr (Or.inr (Or.inl rfl)))
  · exact owned.idle (Or.inr (Or.inr (Or.inr rfl)))
  · rename_i standing
    exact owned.setStage (by simp [Stage.held, standing]) (by simp) (by simp)
  · exact owned.idle (Or.inl rfl)

omit [DecidableEq Pid] in
/-- So does time, while it passes promptly. -/
theorem Owned.pass (owned : state.Owned stale) {seconds : Nat}
    (prompt : Prompt stale state (.pass seconds))
    : ({ state with now := state.now + seconds } : LockState Pid).Owned stale where
  owns := owned.owns
  numbered := owned.numbered
  touched dir there :=
    ⟨(owned.touched dir there).1, Nat.le_add_right_of_le (owned.touched dir there).2⟩
  prompt := prompt
  read worker now dated := Nat.le_add_right_of_le (owned.read worker now dated)
  past := owned.past

end LockState

/-- Every action keeps the lock owned. -/
theorem owned_step {stale : Nat} (state later : LockState Pid) (action : LockAction Pid)
    (owned : state.Owned stale)
    (allowed : Prompt stale state action ∧ Undisturbed state action)
    (taken : (lockMachine stale).step action state = some later)
    : later.Owned stale := by
  cases action with
  | start worker =>
      simp only [lockMachine] at taken
      split at taken
      · cases taken
        exact owned.idle (Or.inr (Or.inl rfl))
      · cases taken
  | proceed worker => exact owned.proceed allowed.2 taken
  | fail worker => exact owned.fail taken
  | kill worker =>
      cases taken
      exact owned.idle (Or.inl rfl)
  | pass seconds =>
      cases taken
      exact owned.pass allowed.1

theorem owned_run {stale : Nat} {state : LockState Pid}
    (run : (lockMachine stale).Runs
      (fun state action => Prompt stale state action ∧ Undisturbed state action) state)
    : state.Owned stale := by
  refine run.invariant ?_ owned_step
  intro state initial
  have away (worker : Pid) : (state.stage worker).held = none := by
    rw [initial.2 worker]
    rfl
  exact {
    owns := fun worker making held => by simp [away] at held
    numbered := fun dir there => by simp [initial.1] at there
    touched := fun dir there => by simp [initial.1] at there
    prompt := fun worker making held => by simp [away] at held
    read := fun worker now dated => by simp [initial.2] at dated
    past := fun worker making judged => by simp [initial.2] at judged
  }

/-- In every run in which no worker outstays the staleness limit and no eviction meets a lock
made after its staleness test, one worker at most is past the lock, and a release removes
nothing but the lock of the worker that releases.
-/
theorem lock_exclusive {stale : Nat} {state : LockState Pid}
    (run : (lockMachine stale).Runs
      (fun state action => Prompt stale state action ∧ Undisturbed state action) state)
    : state.Exclusive ∧ state.OwnRelease := by
  have owned := owned_run run
  refine ⟨fun first second hf hs => ?_, fun worker making releasing dir there => ?_⟩
  · obtain ⟨one, hf⟩ := Option.isSome_iff_exists.mp hf
    obtain ⟨other, hs⟩ := Option.isSome_iff_exists.mp hs
    exact owned.unique hf hs
  · have held : making ∈ (state.stage worker).held := by
      rcases releasing with standing | standing <;> simp [standing, Stage.held]
    obtain ⟨own, dir', there', made⟩ := owned.owns worker making held
    have same : dir = dir' := Option.some.inj (there.symm.trans there')
    exact ⟨same ▸ made, own⟩

-- Runs of three workers

/-- The lock of a worker that was killed is evicted by one worker. -/
def sampleEviction : List (LockAction (Fin 3)) :=
  [LockAction.start 0, .proceed 0, .proceed 0, .kill 0, .pass 4501]
    ++ [LockAction.start 1, .proceed 1, .proceed 1, .proceed 1, .proceed 1, .proceed 1, .proceed 1]

/-- Two workers find the lock of a worker that was killed stale, and the second evicts the lock
that the first has made and has gone on with.
-/
def sampleDoubleEviction (onward : List (LockAction (Fin 3))) : List (LockAction (Fin 3)) :=
  [LockAction.start 0, .proceed 0, .proceed 0, .kill 0, .pass 4501]
    ++ [LockAction.start 1, .proceed 1, .proceed 1, .proceed 1]
    ++ [LockAction.start 2, .proceed 2, .proceed 2, .proceed 2]
    ++ [LockAction.proceed 1, .proceed 1, .proceed 1]
    ++ onward
    ++ [LockAction.proceed 2, .proceed 2, .proceed 2]

def sampleUnlocked : LockState (Fin 3) := ⟨0, none, fun _ => .away, 0⟩

instance (stale : Nat) (state : LockState (Fin 3))
    : (action : LockAction (Fin 3)) → Decidable (Prompt stale state action)
  | .pass seconds =>
      inferInstanceAs (Decidable (∀ worker,
        ∀ making ∈ (state.stage worker).held, state.now + seconds ≤ making.since + stale))
  | .start _ | .proceed _ | .fail _ | .kill _ => isTrue trivial

instance (state : LockState (Fin 3))
    : (action : LockAction (Fin 3)) → Decidable (Undisturbed state action)
  | .proceed worker =>
      inferInstanceAs (Decidable (∀ making ∈ (state.stage worker).stale,
        ∀ dir ∈ state.lock, dir.made = making))
  | .start _ | .fail _ | .kill _ | .pass _ => isTrue trivial

/-- The sample is the end of a run. -/
theorem sampleUnlocked_run (guard : LockState (Fin 3) → LockAction (Fin 3) → Prop)
    : (lockMachine 4500).Runs guard sampleUnlocked :=
  .start ⟨rfl, fun _ => rfl⟩

theorem lock_exclusive_sample
    : ∃ state : LockState (Fin 3),
        state.lock.isSome = true
        ∧ (state.stage 1).held = state.lock.map LockDir.made
        ∧ state.Exclusive
        ∧ state.OwnRelease := by
  have played
      : ((lockMachine 4500).play
          (fun state action => Prompt 4500 state action ∧ Undisturbed state action)
          sampleEviction sampleUnlocked).any (fun state =>
            state.lock.isSome ∧ (state.stage 1).held = state.lock.map LockDir.made)
        = true := by
    decide
  obtain ⟨state, played, holds⟩ := (Option.any_eq_true ..).mp played
  obtain ⟨there, held⟩ := of_decide_eq_true holds
  exact ⟨state, there, held,
    lock_exclusive ((sampleUnlocked_run _).play sampleEviction played)⟩

/-- Both workers are in their reviews; or the first has read its pid, and is about to remove the
lock that is now the second one's.
-/
theorem stale_lock_evicted_twice
    : (∃ state : LockState (Fin 3),
        (lockMachine 4500).Runs (Prompt 4500) state ∧ ¬state.Exclusive)
      ∧ ∃ state : LockState (Fin 3),
          (lockMachine 4500).Runs (Prompt 4500) state ∧ ¬state.OwnRelease := by
  constructor
  · have played
        : ((lockMachine 4500).play (Prompt 4500) (sampleDoubleEviction [])
            sampleUnlocked).any (fun state =>
              (state.stage 1).held.isSome ∧ (state.stage 2).held.isSome)
          = true := by
      decide
    obtain ⟨state, played, holds⟩ := (Option.any_eq_true ..).mp played
    obtain ⟨first, second⟩ := of_decide_eq_true holds
    refine ⟨state, (sampleUnlocked_run _).play _ played, fun exclusive => ?_⟩
    exact absurd (exclusive 1 2 first second) (by decide)
  · have played
        : ((lockMachine 4500).play (Prompt 4500) (sampleDoubleEviction [.proceed 1])
            sampleUnlocked).any (fun state =>
              ∃ dir ∈ state.lock, ∃ making ∈ (state.stage 1).held,
                state.stage 1 = .releasing making ∧ dir.made ≠ making)
          = true := by
      decide
    obtain ⟨state, played, holds⟩ := (Option.any_eq_true ..).mp played
    obtain ⟨dir, there, making, _, releasing, other⟩ := of_decide_eq_true holds
    refine ⟨state, (sampleUnlocked_run _).play _ played, fun own => ?_⟩
    exact other (own 1 making (Or.inl releasing) dir there).1

end Review
