import Myndaix.Deploy.Sync

/-! When a deploy is torn. A run that ends well has deployed the commit of its stamp; a run that
fails leaves what was deployed exactly if whatever it has put into place was there before.
-/

namespace Deploy

open Systems

variable {Sha Content : Type} [DecidableEq Content] {tree : Sha → Target → Option Content}
  {state later : State Sha Content} {run other : Nat} {next : Stage Sha Content}

-- Steps

/-- The stages of a run that works under the lock without a change to what is deployed. -/
inductive Works (tree : Sha → Target → Option Content) (deployment : Deployment Sha Content)
    : Stage Sha Content → Stage Sha Content → Prop where
  | resolve {before : Deployment Sha Content} {sha : Sha}
    : Works tree deployment (.locked before) (.copying ⟨before, sha, [], FILES⟩ .begin)
  | want {before : Deployment Sha Content} {sha : Sha} {replaced rest : List Target}
    {target : Target} {want : Content} (there : tree sha target = some want)
    : Works tree deployment (.copying ⟨before, sha, replaced, target :: rest⟩ .begin)
        (.copying ⟨before, sha, replaced, rest⟩ (.wanted target want))
  | materialize {job : Job Sha Content} {target : Target} {want tmp : Content}
    : Works tree deployment (.copying job (.wanted target want))
        (.copying job (.shown target want tmp))
  | check {job : Job Sha Content} {target : Target} {want : Content}
    : Works tree deployment (.copying job (.shown target want want))
        (.copying job (.checked target want))
  | misplace {job : Job Sha Content} {target : Target} {want : Content}
    : Works tree deployment (.copying job (.checked target want)) (.copying job (.inside target))
  | inspect {job : Job Sha Content} {target : Target} {want : Content}
    (there : deployment.files target = some (.regular want))
    : Works tree deployment (.copying job (.installed target want))
        (.copying { job with replaced := job.replaced ++ [target] } .begin)

/-- What a step can do. -/
inductive Move (tree : Sha → Target → Option Content) (state : State Sha Content)
    : Action Sha Content → State Sha Content → Prop where
  | start {run : Nat} (idle : (state.stage run).before = none)
    : Move tree state (.start run) (state.setStage run .started)
  | lock {run : Nat} (free : state.lock = false)
    : Move tree state (.lock run)
        { state.setStage run (.locked state.deployment) with lock := true }
  | refused {run : Nat} (started : state.stage run = .started)
    : Move tree state (.lock run) (state.setStage run .failed)
  | works {action : Action Sha Content} {run : Nat} {here next : Stage Sha Content}
    (at_stage : state.stage run = here) (works : Works tree state.deployment here next)
    (quiet : Early tree state action)
    : Move tree state action (state.setStage run next)
  | install {run : Nat} {job : Job Sha Content} {target : Target} {want : Content}
    (checked : state.stage run = .copying job (.checked target want))
    : Move tree state (.install run)
        ((state.setStage run (.copying job (.installed target want))).install target want)
  | stamp {run : Nat} {before : Deployment Sha Content} {sha : Sha} {replaced : List Target}
    (copied : state.stage run = .copying ⟨before, sha, replaced, []⟩ .begin)
    : Move tree state (.stamp run) ((state.setStage run (.stamped before sha)).setStamp (.sha sha))
  | cut {run : Nat} {before : Deployment Sha Content} {sha : Sha} {replaced : List Target}
    (copied : state.stage run = .copying ⟨before, sha, replaced, []⟩ .begin)
    : Move tree state (.cut run) ((state.leave run .failed).setStamp .cut)
  | finish {run : Nat} {before : Deployment Sha Content} {sha : Sha}
    (stamped : state.stage run = .stamped before sha)
    : Move tree state (.finish run) (state.leave run (.succeeded sha))
  | fail {run : Nat} : Move tree state (.fail run) (state.leave run .failed)
  | kill {run : Nat} : Move tree state (.kill run) (state.setStage run .away)

theorem move_of_step {action : Action Sha Content} (taken : step tree action state = some later)
    : Move tree state action later := by
  cases action with
  | start run =>
      simp only [step] at taken
      split at taken
      · rename_i away
        cases taken
        exact .start (by rw [away]; rfl)
      · rename_i failed
        cases taken
        exact .start (by rw [failed]; rfl)
      · rename_i succeeded
        cases taken
        exact .start (by rw [succeeded]; rfl)
      · cases taken
  | lock run =>
      simp only [step] at taken
      split at taken
      · rename_i started
        split at taken
        · cases taken
          exact .refused started
        · rename_i free
          cases taken
          exact .lock (eq_false_of_ne_true free)
      · cases taken
  | resolve run sha =>
      simp only [step] at taken
      split at taken
      · rename_i locked
        cases taken
        exact .works locked .resolve trivial
      · cases taken
  | want run =>
      simp only [step] at taken
      split at taken
      · rename_i begin_
        split at taken
        · rename_i there
          cases taken
          exact .works begin_ (.want there) trivial
        · cases taken
      · cases taken
  | materialize run tmp =>
      simp only [step] at taken
      split at taken
      · rename_i wanted
        cases taken
        exact .works wanted .materialize trivial
      · cases taken
  | check run =>
      simp only [step] at taken
      split at taken
      · rename_i shown
        split at taken
        · rename_i same
          cases taken
          subst same
          exact .works shown .check trivial
        · cases taken
      · cases taken
  | install run =>
      simp only [step] at taken
      split at taken
      · rename_i checked
        split at taken
        · cases taken
          exact .works checked .misplace trivial
        · cases taken
          exact .install checked
      · cases taken
  | inspect run =>
      simp only [step] at taken
      split at taken
      · rename_i installed
        split at taken
        · rename_i there
          cases taken
          exact .works installed (.inspect there) trivial
        · cases taken
      · cases taken
  | stamp run =>
      simp only [step] at taken
      split at taken
      · rename_i copied
        cases taken
        exact .stamp copied
      · cases taken
  | cut run =>
      simp only [step] at taken
      split at taken
      · rename_i copied
        cases taken
        exact .cut copied
      · cases taken
  | finish run =>
      simp only [step] at taken
      split at taken
      · rename_i stamped
        cases taken
        exact .finish stamped
      · cases taken
  | fail run =>
      simp only [step] at taken
      split at taken
      · cases taken
        exact .fail
      · cases taken
        exact .fail
      · cases taken
        exact .fail
      · cases taken
        exact .fail
      · cases taken
  | kill run =>
      cases taken
      exact .kill

-- The invariant

/-- These files are those of the commit, the others are as they were before. -/
def Copied (tree : Sha → Target → Option Content) (sha : Sha) (before : Deployment Sha Content)
    (replaced : List Target) (deployment : Deployment Sha Content)
    : Prop :=
  (∀ target ∈ replaced,
      ∃ content,
        tree sha target = some content ∧ deployment.files target = some (.regular content))
  ∧ ∀ target ∉ replaced, deployment.files target = before.files target

/-- Where the loop is in the list of files, and what it wants of the current one. -/
def Follows (tree : Sha → Target → Option Content) (job : Job Sha Content)
    : CopyStep Content → Prop
  | .begin => job.replaced ++ job.rest = FILES
  | .inside _ => True
  | .wanted target want | .shown target want _ | .checked target want | .installed target want =>
      job.replaced ++ target :: job.rest = FILES ∧ tree job.sha target = some want

/-- What a run that has the lock knows of what is deployed, by its stage. -/
def Fits (tree : Sha → Target → Option Content) (deployment : Deployment Sha Content)
    : Stage Sha Content → Prop
  | .locked before => deployment = before
  | .copying job step =>
      deployment.stamp = job.before.stamp
      ∧ Copied tree job.sha job.before (job.replaced ++ step.placed) deployment
      ∧ Follows tree job step
  | .stamped before sha =>
      Copied tree sha before FILES deployment ∧ deployment.stamp = some (.sha sha)
  | _ => True

/-- One run has the lock, and knows what is deployed. -/
structure Sound (tree : Sha → Target → Option Content) (state : State Sha Content) : Prop where
  sole
    : ∀ first second,
        (state.stage first).before.isSome
        → (state.stage second).before.isSome
        → first = second
  locked : ∀ run, (state.stage run).before.isSome → state.lock = true
  fits : ∀ run, Fits tree state.deployment (state.stage run)

section Invariant

omit [DecidableEq Content] in
theorem fits_of_free {deployment : Deployment Sha Content} {stage : Stage Sha Content}
    (free : stage.before = none)
    : Fits tree deployment stage := by
  cases stage with
  | locked _ => cases free
  | copying _ _ => cases free
  | stamped _ _ => cases free
  | away => exact trivial
  | started => exact trivial
  | failed => exact trivial
  | succeeded _ => exact trivial

omit [DecidableEq Content] in
theorem Sound.alone (sound : Sound tree state) (held : (state.stage run).before.isSome)
    (another : other ≠ run)
    : (state.stage other).before = none := by
  cases found : (state.stage other).before with
  | none => rfl
  | some before => exact absurd (sound.sole other run (by rw [found]; rfl) held) another

omit [DecidableEq Content] in
theorem Sound.free (sound : Sound tree state) (free : state.lock = false) (other : Nat)
    : (state.stage other).before = none := by
  cases found : (state.stage other).before with
  | none => rfl
  | some before =>
      have locked := sound.locked other (by rw [found]; rfl)
      rw [free] at locked
      cases locked

omit [DecidableEq Content] in
/-- One run moves. The others have the lock only if it has not, and then nothing is changed. -/
theorem Sound.moved (sound : Sound tree state)
    (stage : later.stage = Function.update state.stage run next)
    (same
      : later.deployment = state.deployment ∨ ∀ other ≠ run, (state.stage other).before = none)
    (alone : next.before.isSome → ∀ other ≠ run, (state.stage other).before = none)
    (locked : next.before.isSome → later.lock = true)
    (kept : ∀ other ≠ run, (state.stage other).before.isSome → later.lock = true)
    (fits : Fits tree later.deployment next)
    : Sound tree later where
  sole first second one two := by
    rw [stage] at one two
    by_cases mine : first = run
    · by_cases yours : second = run
      · exact mine.trans yours.symm
      · rw [mine, Function.update_self] at one
        rw [Function.update_of_ne yours, alone one second yours] at two
        cases two
    · rw [Function.update_of_ne mine] at one
      by_cases yours : second = run
      · rw [yours, Function.update_self] at two
        rw [alone two first mine] at one
        cases one
      · rw [Function.update_of_ne yours] at two
        exact sound.sole first second one two
  locked other held := by
    rw [stage] at held
    by_cases mine : other = run
    · rw [mine, Function.update_self] at held
      exact locked held
    · rw [Function.update_of_ne mine] at held
      exact kept other mine held
  fits other := by
    rw [stage]
    by_cases mine : other = run
    · rw [mine, Function.update_self]
      exact fits
    · rw [Function.update_of_ne mine]
      rcases same with unchanged | free
      · rw [unchanged]
        exact sound.fits other
      · exact fits_of_free (free other mine)

omit [DecidableEq Content] in
/-- The run that has the lock goes on with it. -/
theorem Sound.goesOn (sound : Sound tree state) (held : (state.stage run).before.isSome)
    (stage : later.stage = Function.update state.stage run next) (lock : later.lock = state.lock)
    (fits : Fits tree later.deployment next)
    : Sound tree later :=
  sound.moved stage (.inr fun _ another => sound.alone held another)
    (fun _ _ another => sound.alone held another)
    (fun _ => lock.trans (sound.locked run held))
    (fun other _ had => lock.trans (sound.locked other had)) fits

omit [DecidableEq Content] in
/-- A run ends, whether it has the lock or not. -/
theorem Sound.leave (sound : Sound tree state) (ended : next.before = none)
    : Sound tree (state.leave run next) := by
  refine sound.moved rfl (.inl rfl) ?_ ?_ ?_ (fits_of_free ended)
  · intro held
    rw [ended] at held
    cases held
  · intro held
    rw [ended] at held
    cases held
  · intro other another had
    unfold State.leave
    split
    · rename_i held
      rw [sound.alone held another] at had
      cases had
    · exact sound.locked other had

omit [DecidableEq Content] in
/-- What a run does under the lock keeps what it knows, step by step. -/
theorem Works.fits {here : Stage Sha Content} (works : Works tree state.deployment here next)
    (fits : Fits tree state.deployment here)
    : here.before.isSome ∧ Fits tree state.deployment next := by
  cases works with
  | resolve =>
      have same : state.deployment = _ := fits
      refine ⟨rfl, congrArg Deployment.stamp same, ⟨fun _ mem => ?_, fun _ _ => ?_⟩, rfl⟩
      · cases mem
      · rw [same]
  | want there =>
      obtain ⟨stamp, copied, cut⟩ := fits
      exact ⟨rfl, stamp, copied, cut, there⟩
  | materialize => exact ⟨rfl, fits⟩
  | check => exact ⟨rfl, fits⟩
  | misplace => exact ⟨rfl, fits.1, fits.2.1, trivial⟩
  | inspect there =>
      obtain ⟨stamp, copied, cut, _⟩ := fits
      refine ⟨rfl, stamp, ?_, (List.append_assoc _ _ _).trans cut⟩
      exact (List.append_nil (_ ++ [_])).symm ▸ copied

omit [DecidableEq Content] in
theorem copied_install {sha : Sha} {before : Deployment Sha Content} {replaced : List Target}
    {target : Target} {want : Content} (copied : Copied tree sha before replaced state.deployment)
    (there : tree sha target = some want)
    : Copied tree sha before (replaced ++ [target]) (state.install target want).deployment := by
  obtain ⟨done, rest⟩ := copied
  constructor
  · intro own mem
    by_cases same : own = target
    · exact ⟨want, same ▸ there, same ▸ Function.update_self _ _ _⟩
    · obtain ⟨content, committed, placed⟩ := done own (by simpa [same] using mem)
      exact ⟨content, committed, (Function.update_of_ne same _ _).trans placed⟩
  · intro own absent
    obtain ⟨absent, same⟩ : own ∉ replaced ∧ own ≠ target := by simpa using absent
    exact (Function.update_of_ne same _ _).trans (rest own absent)

omit [DecidableEq Content] in
theorem Sound.step {action : Action Sha Content} (sound : Sound tree state)
    (move : Move tree state action later)
    : Sound tree later := by
  cases move with
  | start idle =>
      refine sound.moved rfl (.inl rfl) ?_ ?_ (fun other _ had => sound.locked other had) trivial
      · exact fun held => by cases held
      · exact fun held => by cases held
  | lock free =>
      refine sound.moved rfl (.inl rfl) ?_ (fun _ => rfl) (fun _ _ _ => rfl) rfl
      exact fun _ other _ => sound.free free other
  | refused started =>
      refine sound.moved rfl (.inl rfl) ?_ ?_ (fun other _ had => sound.locked other had) trivial
      · exact fun held => by cases held
      · exact fun held => by cases held
  | @works action run here next at_stage works quiet =>
      obtain ⟨held, fits⟩ := works.fits (at_stage ▸ sound.fits run)
      exact sound.goesOn (at_stage ▸ held) rfl rfl fits
  | @install run job target want checked =>
      have fits := sound.fits run
      rw [checked] at fits
      obtain ⟨stamp, copied, cut, there⟩ := fits
      have copied : Copied tree job.sha job.before job.replaced state.deployment :=
        List.append_nil job.replaced ▸ copied
      refine sound.goesOn (by rw [checked]; rfl) rfl rfl ⟨stamp, ?_, cut, there⟩
      exact copied_install copied there
  | @stamp run before sha replaced copied =>
      have fits := sound.fits run
      rw [copied] at fits
      obtain ⟨stamp, copies, cut⟩ := fits
      have all : replaced ++ [] = FILES := cut
      change Copied tree sha before (replaced ++ []) state.deployment at copies
      rw [all] at copies
      exact sound.goesOn (by rw [copied]; rfl) rfl rfl ⟨copies, rfl⟩
  | @cut run before sha replaced copied =>
      have held : (state.stage run).before.isSome := by rw [copied]; rfl
      refine sound.moved rfl (.inr fun other another => sound.alone held another) ?_ ?_ ?_ trivial
      · exact fun held => by cases held
      · exact fun held => by cases held
      · intro other another had
        rw [sound.alone held another] at had
        cases had
  | finish stamped => exact sound.leave rfl
  | fail => exact sound.leave rfl
  | kill =>
      refine sound.moved rfl (.inl rfl) ?_ ?_ (fun other _ had => sound.locked other had) trivial
      · exact fun held => by cases held
      · exact fun held => by cases held

omit [DecidableEq Content] in
/-- What a copying run has put into place is all that can differ from before. -/
theorem files_iff_idle {job : Job Sha Content} {step : CopyStep Content}
    (copied : Copied tree job.sha job.before (job.replaced ++ step.placed) state.deployment)
    : state.deployment.files = job.before.files ↔ (Stage.copying job step).Idle tree := by
  obtain ⟨done, rest⟩ := copied
  constructor
  · intro same target mem
    obtain ⟨content, committed, placed⟩ := done target mem
    exact ⟨content, committed, same ▸ placed⟩
  · intro idle
    funext target
    by_cases mem : target ∈ job.replaced ++ step.placed
    · obtain ⟨content, committed, placed⟩ := done target mem
      obtain ⟨content', committed', there⟩ := idle target mem
      obtain rfl : content = content' := Option.some.inj (committed.symm.trans committed')
      rw [placed, there]
    · exact rest target mem

omit [DecidableEq Content] in
/-- Nothing has changed since a run has the lock exactly if it was idle, by its stage. -/
theorem Sound.unchanged_iff (sound : Sound tree state)
    : state.deployment = state.beforeRun run ↔ (state.stage run).Idle tree := by
  have fits := sound.fits run
  unfold State.beforeRun
  cases found : state.stage run with
  | away | started | failed | succeeded _ => exact ⟨fun _ => trivial, fun _ => rfl⟩
  | locked before =>
      rw [found] at fits
      exact ⟨fun _ => trivial, fun _ => fits⟩
  | copying job step =>
      rw [found] at fits
      obtain ⟨stamp, copied, _⟩ := fits
      refine Iff.trans ⟨fun same => ?_, fun same => ?_⟩ (files_iff_idle copied)
      · exact congrArg Deployment.files same
      · exact Deployment.ext same stamp
  | stamped before sha =>
      rw [found] at fits
      obtain ⟨⟨done, _⟩, stamp⟩ := fits
      have every (target : Target) : target ∈ FILES := by cases target <;> decide
      constructor
      · intro same
        obtain rfl : state.deployment = before := same
        exact ⟨fun target => done target (every target), stamp⟩
      · intro deployed
        refine Deployment.ext (funext fun target => ?_) (stamp.trans deployed.2.symm)
        obtain ⟨content, committed, placed⟩ := done target (every target)
        obtain ⟨content', committed', there⟩ := deployed.1 target
        obtain rfl : content = content' := Option.some.inj (committed.symm.trans committed')
        exact placed.trans there.symm

end Invariant

-- Every run

theorem sound_of_runs {guard : State Sha Content → Action Sha Content → Prop}
    (runs : (sync tree).Runs guard state)
    : Sound tree state := by
  refine runs.invariant (fun fresh initial => ?_) fun _ _ _ sound _ taken =>
    sound.step (move_of_step taken)
  have away (run : Nat) : fresh.stage run = .away := congrFun initial.2 run
  exact {
    sole := fun first _ held => by
      rw [away] at held
      cases held
    locked := fun run held => by
      rw [away] at held
      cases held
    fits := fun run => by
      rw [away]
      exact trivial
  }

omit [DecidableEq Content] in
/-- A run that comes to a stage has moved there. -/
theorem moved_to {stage : Stage Sha Content}
    (moved : later.stage = Function.update state.stage run next)
    (here : later.stage other = stage) (fresh : state.stage other ≠ stage)
    : other = run ∧ next = stage := by
  rw [moved] at here
  by_cases same : other = run
  · rw [same, Function.update_self] at here
    exact ⟨same, here⟩
  · rw [Function.update_of_ne same] at here
    exact absurd here fresh

omit [DecidableEq Content] in
theorem Works.holds {deployment : Deployment Sha Content} {here : Stage Sha Content}
    (works : Works tree deployment here next)
    : next.before.isSome := by
  cases works with
  | resolve | want _ | materialize | check | misplace | inspect _ => rfl

/-- In every run of any number of deploys: one that succeeds has deployed the commit of its stamp,
and one that fails leaves what was deployed when it came to the lock exactly if it fails early.
-/
theorem deploy_untorn_iff (tree : Sha → Target → Option Content)
    {state later : State Sha Content} {action : Action Sha Content}
    (runs : (sync tree).Runs (fun _ _ => True) state) (taken : step tree action state = some later)
    (run : Nat)
    : (∀ sha,
        later.stage run = .succeeded sha
        → state.stage run ≠ .succeeded sha
        → Deployed tree sha later.deployment)
      ∧ (later.stage run = .failed
        → state.stage run ≠ .failed
        → (later.deployment = state.beforeRun run ↔ Early tree state action)) := by
  have sound := sound_of_runs runs
  refine ⟨fun sha ended fresh => ?_, fun ended fresh => ?_⟩
  · cases move_of_step taken with
    | start _ | lock _ | refused _ | install _ | stamp _ | cut _ | fail | kill =>
        cases (moved_to rfl ended fresh).2
    | works _ works _ =>
        have holds := works.holds
        rw [(moved_to rfl ended fresh).2] at holds
        cases holds
    | @finish own before _ stamped =>
        obtain ⟨rfl, same⟩ := moved_to rfl ended fresh
        cases same
        have fits := sound.fits run
        rw [stamped] at fits
        obtain ⟨⟨done, _⟩, stamp⟩ := fits
        exact ⟨fun target => done target (by cases target <;> decide), stamp⟩
  · cases move_of_step taken with
    | start _ | lock _ | install _ | stamp _ | finish _ | kill =>
        cases (moved_to rfl ended fresh).2
    | works _ works _ =>
        have holds := works.holds
        rw [(moved_to rfl ended fresh).2] at holds
        cases holds
    | refused started =>
        obtain ⟨rfl, _⟩ := moved_to rfl ended fresh
        refine ⟨fun _ => trivial, fun _ => ?_⟩
        rw [State.beforeRun, started]
        rfl
    | fail =>
        obtain ⟨rfl, _⟩ := moved_to rfl ended fresh
        exact sound.unchanged_iff
    | @cut own before sha replaced copied =>
        obtain ⟨rfl, _⟩ := moved_to rfl ended fresh
        have unchanged := @Sound.unchanged_iff _ _ _ _ run sound
        have fits := sound.fits run
        rw [Early, ← unchanged]
        rw [State.beforeRun, copied] at unchanged ⊢
        rw [copied] at fits
        change _ = before ↔ state.deployment = before ∧ before.stamp = some .cut
        constructor
        · intro same
          have cutOff : before.stamp = some .cut := (congrArg Deployment.stamp same).symm
          have files : state.deployment.files = before.files := (congrArg Deployment.files same :)
          exact ⟨Deployment.ext files fits.1, cutOff⟩
        · rintro ⟨rfl, cutOff⟩
          exact Deployment.ext rfl cutOff.symm

-- Samples

/-- A machine on which the files of an older commit are deployed. -/
def deployed : State Nat Nat where
  deployment := { files := fun _ => some (.regular 0), stamp := some (.sha 3) }
  lock := false
  stage _ := .away

/-- The steps of a run up to its loop, and over one file. -/
def opening (run sha : Nat) : List (Action Nat Nat) :=
  [.start run, .lock run, .resolve run sha]

def copyingFile (run content : Nat) : List (Action Nat Nat) :=
  [.want run, .materialize run content, .check run, .install run, .inspect run]

/-- Commit 7 has all files, commit 5 has no phone script yet. -/
def commits : Nat → Target → Option Nat
  | 7, .playFix => some 1
  | 7, .playReview => some 2
  | 7, .phone => some 3
  | 5, .playFix => some 4
  | 5, .playReview => some 5
  | _, _ => none

theorem deploy_untorn_iff_whole
    : ∃ state later,
        (sync commits).Runs (fun _ _ => True) state
        ∧ step commits (.finish 0) state = some later
        ∧ Deployed commits 7 later.deployment := by
  have begun : (sync commits).Runs (fun _ _ => True) deployed := .start ⟨rfl, rfl⟩
  let actions := opening 0 7 ++ copyingFile 0 1 ++ copyingFile 0 2 ++ copyingFile 0 3 ++ [.stamp 0]
  have run := begun.play actions rfl
  obtain ⟨whole, _⟩ := @deploy_untorn_iff _ _ _ commits _ _ (.finish 0) run rfl 0
  refine ⟨_, _, run, rfl, whole 7 rfl fun same => ?_⟩
  have held : true = false := congrArg (fun stage => stage.before.isSome) same
  cases held

/-- The third file is not at the ref: the run fails, and has replaced the first two. -/
theorem deploy_torn_behind_missing_path
    : ∃ state later,
        (sync commits).Runs (fun _ _ => True) state
        ∧ step commits (.fail 0) state = some later
        ∧ later.stage 0 = .failed
        ∧ (state.beforeRun 0).files .playFix = some (.regular 0)
        ∧ later.deployment.files .playFix = some (.regular 4)
        ∧ later.deployment.stamp = some (.sha 3) := by
  have begun : (sync commits).Runs (fun _ _ => True) deployed := .start ⟨rfl, rfl⟩
  have run := begun.play (opening 0 5 ++ copyingFile 0 4 ++ copyingFile 0 5) rfl
  exact ⟨_, _, run, rfl, rfl, rfl, rfl, rfl⟩

end Deploy
