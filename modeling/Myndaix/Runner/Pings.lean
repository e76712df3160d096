import Myndaix.Runner.Worker

/-! What a heartbeat costs a live job. A ping that is refused because the lease is lost ends the
agent and leaves nothing behind, as it should; but so does a ping that fails for any other reason,
and then the pool fails the attempt.
-/

namespace Worker

open Interaction Interaction.Program Ledger

-- The surroundings of a worker

/-- The agent, and how many more waits it goes on for at most. -/
inductive Agent where
  | idle
  | running (left : ℕ)
  | ended
  | cancelled
deriving DecidableEq, Repr

/-- What an attempt has on record: a result of its worker, or the failure that the pool reports. -/
inductive Entry where
  | own (result : Result)
  | faulted
deriving DecidableEq, Repr

/-- The agent of the attempt, what it comes to, whether another client has taken the attempt away,
how the pings went, and what was recorded.
-/
structure World where
  duration : ℕ
  outcome : Result
  agent : Agent
  lost : Bool
  pings : List (Except Failure Unit)
  recorded : List Entry

def World.start (duration : ℕ) (outcome : Result) : World where
  duration
  outcome
  agent := .idle
  lost := false
  pings := []
  recorded := []

/-- While a ping is under way the agent goes on, and may come to its end. -/
def Agent.GoesOn : Agent → Agent → Prop
  | .running left, after => after = .ended ∨ ∃ fewer ≤ left, after = .running fewer
  | before, after => after = before

/-- A result is recorded while the attempt is open, and refused when it is lost. -/
def Records (entry : Entry) (before : World) (answer : Except Failure Unit)
    (after : World) : Prop :=
  if before.lost then answer = .error .lostLease ∧ after = before
  else answer = .ok () ∧ after = { before with recorded := before.recorded ++ [entry] }

/-- How the worker's calls are answered, whatever the pings come to: a lease is granted, the job is
there as long as the attempt is not lost, git does its work, and the agent runs for its time.
-/
def Answers : (query : Query) → World → Answer query → World → Prop
  | .leaseJob _, before, answer, after =>
      (∃ attemptId, answer = .ok (some attemptId)) ∧ after = before
  | .getAttemptJob _, before, answer, after =>
      (if before.lost then answer = .ok none else ∃ job, answer = .ok (some job)) ∧ after = before
  | .createWorktree .., before, answer, after => answer = .ok () ∧ after = before
  | .invoke _, before, answer, after =>
      answer = .ok before.outcome ∧ after = { before with agent := .ended }
  | .startAgent _, before, _, after => after = { before with agent := .running before.duration }
  | .waitAgent _, before, answer, after =>
      match before.agent with
      | .running (left + 1) => answer = none ∧ after = { before with agent := .running left }
      | _ => answer = some (.ok before.outcome) ∧ after = { before with agent := .ended }
  | .heartbeatAttempt _, before, answer, after =>
      (answer = .ok () → before.lost = false) ∧ (answer = .error .lostLease → before.lost = true)
      ∧ ∃ agent, before.agent.GoesOn agent
          ∧ after = { before with pings := before.pings ++ [answer], agent }
  | .agentDone, before, answer, after => answer = decide (before.agent = .ended) ∧ after = before
  | .cancelAgent, before, _, after => after = { before with agent := .cancelled }
  | .captureDiff _, before, answer, after =>
      (∃ artifactRef, answer = .ok artifactRef) ∧ after = before
  | .completeAttempt _ result, before, answer, after => Records (.own result) before answer after
  | .failAttempt _ result, before, answer, after => Records (.own result) before answer after
  | .unlink _, before, _, after => after = before
  | .cleanup .., before, answer, after => answer = .ok () ∧ after = before
  | .failFaulted .., before, answer, after =>
      Records .faulted before answer after ∨ ((∃ error, answer = .error error) ∧ after = before)
  | .sleep _, before, _, after => after = before
  | .forever, _, _, _ => False

/-- Another client may take the attempt away at any time; the rounds of the heartbeat never run out.
-/
def surroundings : Setting Query Answer World where
  interferes := fun before after =>
    after = { before with lost := after.lost } ∧ (before.lost = true → after.lost = true)
  answers := Answers
  permits := fun _ query => query ≠ .forever
  interferes_refl := fun _ => ⟨rfl, id⟩
  interferes_trans := by
    intro first second third early late
    refine ⟨?_, fun lost => late.2 (early.2 lost)⟩
    rw [late.1, early.1]

-- What a run comes to

/-- The agent's own result is the one entry, with the diff of its worktree for an artifact. -/
def World.OwnRecorded (world : World) : Prop :=
  ∃ artifactRef, world.recorded = [.own { world.outcome with artifactRef }]

def World.Stopped (world : World) : Prop :=
  world.agent = .ended ∨ world.agent = .cancelled

/-- Some ping failed otherwise than for a lost lease. -/
def World.Dropped (world : World) : Prop :=
  ∃ error, .error (.other error) ∈ world.pings

/-- No ping failed otherwise than for a lost lease; or the agent ended by itself while it did, with
an attempt that another client had taken away.
-/
def Undisturbed (world : World) : Prop :=
  ¬ world.Dropped ∨ world.lost = true ∧ world.agent = .ended

/-- The agent has come to its end with no ping refused. -/
structure Finished (world : World) : Prop where
  agent : world.agent = .ended
  pings : ∀ ping ∈ world.pings, ping = .ok ()
  recorded : world.recorded = []

/-- The lease was lost under the agent. -/
structure Abandoned (world : World) : Prop where
  lost : world.lost = true
  stopped : world.Stopped
  refused : .error .lostLease ∈ world.pings
  dropped : ¬ world.Dropped
  recorded : world.recorded = []

/-- A ping failed under the agent. -/
structure Disturbed (world : World) : Prop where
  stopped : world.Stopped
  held : .error .lostLease ∉ world.pings
  dropped : world.Dropped
  own : ∀ result, .own result ∉ world.recorded

/-- While the agent is watched, with so many rounds left. -/
structure Watched (rounds : ℕ) (world : World) : Prop where
  agent : world.agent = .ended ∧ 0 < rounds ∨ ∃ left < rounds, world.agent = .running left
  pings : ∀ ping ∈ world.pings, ping = .ok ()
  recorded : world.recorded = []

/-- Where a run of the agent leads. -/
def Leads (outcome : Result) (result : Except Failure Result) (world : World) : Prop :=
  match result with
  | .ok result => Finished world ∧ world.outcome = outcome ∧ result = outcome
  | .error .lostLease => Abandoned world
  | .error (.other _) => Disturbed world

/-- Where the worker's part of an attempt leads: the result is recorded, or refused because the
attempt was lost, before or after the agent was run; or the lease was lost under it; or a ping
failed.
-/
inductive Settled : Except Failure (Option ResultStatus) → World → Prop
  | own {status world} (agent : world.agent = .ended) (pings : ∀ ping ∈ world.pings, ping = .ok ())
    (recorded : world.OwnRecorded)
    : Settled (.ok status) world
  | refused {status world} (agent : world.agent ≠ .cancelled)
    (pings : ∀ ping ∈ world.pings, ping = .ok ()) (lost : world.lost = true)
    : Settled (.ok status) world
  | abandoned {status world} (abandoned : Abandoned world) : Settled (.ok status) world
  | disturbed {failure world} (disturbed : Disturbed world) : Settled (.error failure) world

-- Under the heartbeat

/-- Others only ever take the attempt away. -/
theorem steady {holds : World → Prop}
    (stable : ∀ world, holds world → holds { world with lost := true })
    : Steady surroundings (fun _ => False) holds where
  stable := by
    rintro before after here ⟨same, kept⟩
    rw [same]
    cases lost : after.lost with
    | true => exact stable before here
    | false =>
        have live : before.lost = false := by
          cases taken : before.lost with
          | false => rfl
          | true => rw [kept taken] at lost; exact lost
        rw [← live]
        exact here
  permits := nofun
  step := nofun

/-- The last ping failed, and all before it went through. -/
structure Refused (failure : Failure) (world : World) : Prop where
  pings : ∃ earlier, (∀ ping ∈ earlier, ping = .ok ()) ∧ world.pings = earlier ++ [.error failure]
  recorded : world.recorded = []
  lost : failure = .lostLease → world.lost = true

section Watch

variable {attemptId : Id} {interval : ℚ} {rounds : ℕ} {failure : Failure} {outcome : Result}
  {job : Job} {world : World}

/-- The only failure among the pings is the last one. -/
theorem Refused.mem_pings (refused : Refused failure world) (other : Failure)
    : .error other ∈ world.pings ↔ other = failure := by
  obtain ⟨earlier, ok, pings⟩ := refused.pings
  rw [pings, List.mem_append, List.mem_singleton, Except.error.injEq]
  constructor
  · rintro (mem | same)
    · cases ok _ mem
    · exact same
  · exact .inr

theorem Refused.leads (refused : Refused failure world) (stopped : world.Stopped)
    : Leads outcome (.error failure) world := by
  cases failure with
  | lostLease =>
      exact {
        lost := refused.lost rfl
        stopped
        refused := (refused.mem_pings _).mpr rfl
        dropped := fun ⟨error, mem⟩ => nomatch (refused.mem_pings _).mp mem
        recorded := refused.recorded
      }
  | other error =>
      exact {
        stopped
        held := fun mem => nomatch (refused.mem_pings _).mp mem
        dropped := ⟨error, (refused.mem_pings _).mpr rfl⟩
        own := by simp [refused.recorded]
      }

end Watch

-- The attempt

section Attempt

variable {attemptId : Id} {interval : Option ℚ} {rounds : ℕ} {outcome : Result} {job : Job}
  {world : World} {artifactRef : Option String} {worktree : Option (String × String)}

/-- Before the agent is run. -/
structure Fresh (rounds : ℕ) (outcome : Result) (world : World) : Prop where
  agent : world.agent = .idle
  pings : world.pings = []
  recorded : world.recorded = []
  duration : world.duration < rounds
  outcome : world.outcome = outcome

variable {isWorkspaceActor : String → Bool} {worktreePath : Id → String}

end Attempt

-- The round of the pool

section Round

variable {world : World}

/-- The failure that the pool reports is none of the worker's own. -/
theorem Disturbed.fails {answer : Except Failure Unit} {after : World} (disturbed : Disturbed world)
    (answered
      : Records .faulted world answer after ∨ ((∃ error, answer = .error error) ∧ after = world))
    : Disturbed after := by
  rcases answered with recorded | ⟨_, rfl⟩
  · unfold Records at recorded
    split at recorded
    · obtain ⟨_, rfl⟩ := recorded
      exact disturbed
    · obtain ⟨_, rfl⟩ := recorded
      refine ⟨disturbed.stopped, disturbed.held, disturbed.dropped, fun result mem => ?_⟩
      rcases List.mem_append.mp mem with mem | same
      · exact disturbed.own result mem
      · cases List.mem_singleton.mp same
  · exact disturbed

end Round

end Worker
