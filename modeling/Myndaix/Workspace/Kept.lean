import Myndaix.Workspace.Artifacts

/-! What a worker does to the artifacts: it writes and removes files of its own attempt only, and
none once the attempt has delivered. It relies on the others for its own attempt only.
-/

namespace Workspace

open Interaction Interaction.Program Ledger
open Worker (Failure Query Answer Run)

variable {worktreePath : Id → String} {id : Id} {world before after : World}

-- One worker among others

/-- An artifact of the attempt's own: its patch, or what its agent has named. -/
def Own (worktreePath : Id → String) (id : Id) (world : World) (path : String) : Prop :=
  path = patchPath (worktreePath id) ∨ world.named id = some path

/-- What a worker may call at a time: it writes and removes files of its own only, and nothing of
them once its attempt has delivered.
-/
def Permits (worktreePath : Id → String) (id : Id) (world : World) : Query → Prop
  | .createWorktree _ _ own | .failAttempt own _ => own = id
  | .invoke _ | .waitAgent _ => world.delivered id = none
  | .captureDiff worktree => worktree = worktreePath id ∧ world.delivered id = none
  | .completeAttempt own result =>
      own = id ∧ world.delivered id = none
      ∧ ∀ path ∈ result.artifactRef, Own worktreePath id world path
  | .unlink (some path) => world.delivered id = none ∧ Own worktreePath id world path
  | _ => True

/-- The others leave alone what the attempt has delivered and named. -/
def surroundings (worktreePath : Id → String) (id : Id) : Setting Query Answer World where
  interferes before after :=
    after.delivered id = before.delivered id ∧ after.named id = before.named id
  answers := Responds worktreePath id
  permits := Permits worktreePath id
  interferes_refl := fun _ => ⟨rfl, rfl⟩
  interferes_trans := fun early late => ⟨late.1.trans early.1, late.2.trans early.2⟩

/-- The calls that neither end the agent nor touch a file nor settle the attempt. -/
def Quiet (id : Id) : Query → Prop
  | .createWorktree _ _ own | .failAttempt own _ => own = id
  | .invoke _ | .waitAgent _ | .captureDiff _ | .completeAttempt .. | .unlink (some _) => False
  | _ => True

/-- A quiet call is permitted, and leaves deliveries and names. -/
theorem Quiet.permits {query : Query} (quiet : Quiet id query)
    : Permits worktreePath id world query := by
  cases query with
  | createWorktree | failAttempt => exact quiet
  | invoke | waitAgent | captureDiff | completeAttempt => exact quiet.elim
  | unlink path =>
      cases path with
      | none => exact trivial
      | some path => exact quiet.elim
  | leaseJob | getAttemptJob | startAgent | heartbeatAttempt | agentDone | cancelAgent | cleanup
  | failFaulted | sleep | forever => exact trivial

theorem Quiet.kept {query : Query} {answer : Answer query} (quiet : Quiet id query)
    (responds : Responds worktreePath id query before answer after)
    : after.delivered = before.delivered ∧ after.named = before.named := by
  cases query with
  | createWorktree repoId baseRef own =>
      obtain ⟨there, _, rfl⟩ := responds
      exact ⟨rfl, rfl⟩
  | failAttempt own result =>
      rcases responds with rfl | ⟨_, rfl⟩
      · exact ⟨rfl, rfl⟩
      · exact ⟨rfl, rfl⟩
  | invoke | waitAgent | captureDiff | completeAttempt => exact quiet.elim
  | unlink path =>
      cases path with
      | none =>
          obtain rfl : after = before := responds
          exact ⟨rfl, rfl⟩
      | some path => exact quiet.elim
  | cleanup repoId worktree =>
      obtain ⟨there, rfl⟩ := responds
      exact ⟨rfl, rfl⟩
  | forever => exact responds.elim
  | leaseJob | getAttemptJob | startAgent | heartbeatAttempt | agentDone | cancelAgent | failFaulted
  | sleep =>
      obtain rfl : after = before := responds
      exact ⟨rfl, rfl⟩

/-- An assertion about what the attempt has delivered and named survives the others and quiet
calls.
-/
theorem steady (holds : Option (Option String) → Option String → Prop)
    : Steady (surroundings worktreePath id) (Quiet id)
        (fun world => holds (world.delivered id) (world.named id)) where
  stable := by
    rintro before after here ⟨delivered, named⟩
    rw [delivered, named]
    exact here
  permits quiet _ := quiet.permits
  step quiet here answered := by
    obtain ⟨delivered, named⟩ := quiet.kept answered
    rw [delivered, named]
    exact here

section Contract

variable {job : Worker.Job} {result : Result} {worktree : Option (String × String)}

/-- Nothing is delivered yet, and a result has the name of its artifact from the agent. -/
def Undelivered (id : Id) (answered : Except Failure Result) (world : World) : Prop :=
  world.delivered id = none
  ∧ ∀ result, answered = .ok result → world.named id = result.artifactRef

theorem undelivered_error {failure : Failure}
    (here : world.delivered id = none)
    : (pure (.error failure) : Run (Except Failure Result)).Ensures (surroundings worktreePath id)
        (Undelivered id) world :=
  (steady fun delivered _ => delivered = none).ends here fun _ kept => ⟨kept, nofun⟩

theorem undelivered_ok (here : world.delivered id = none)
    (named : world.named id = result.artifactRef)
    : (pure (.ok result) : Run (Except Failure Result)).Ensures (surroundings worktreePath id)
        (Undelivered id) world := by
  refine (steady fun delivered named => delivered = none ∧ named = result.artifactRef).ends
    ⟨here, named⟩ fun later kept => ⟨kept.1, fun other same => ?_⟩
  cases same
  exact kept.2

/-- The end of an agent delivers nothing. -/
theorem Ends.kept (ends : Ends id before result after)
    : after.delivered = before.delivered ∧ after.named id = result.artifactRef := by
  obtain ⟨files, rfl, _⟩ := ends
  exact ⟨rfl, Function.update_self _ _ _⟩

/-- By induction on the rounds. -/
theorem watch_undelivered {interval : ℚ} {rounds : ℕ} (here : world.delivered id = none)
    : (Worker.watch id interval rounds).Ensures (surroundings worktreePath id) (Undelivered id)
        world := by
  have kept := @steady worktreePath id fun delivered _ => delivered = none
  induction rounds generalizing world with
  | zero => exact kept.asks trivial here fun answer => nomatch answer
  | succ rounds ih =>
      refine kept.calls here (fun _ here => here) fun answer before after here answered => ?_
      cases answer with
      | none =>
          obtain rfl : after = before := answered
          refine kept.asks trivial here fun answer after here => ?_
          cases answer with
          | ok _ => exact ih here
          | error failure =>
              refine kept.asks trivial here fun done after here => ?_
              cases done with
              | true => exact undelivered_error here
              | false => exact kept.asks trivial here fun _ after here => undelivered_error here
      | some ended =>
          cases ended with
          | ok result =>
              obtain ⟨delivered, named⟩ := Ends.kept answered
              exact undelivered_ok ((congrFun delivered id).trans here) named
          | error error =>
              obtain rfl : after = before := answered
              exact undelivered_error here

theorem invoke_undelivered {heartbeatInterval : Option ℚ} {rounds : ℕ}
    (here : world.delivered id = none)
    : (Worker.invoke id job heartbeatInterval rounds).Ensures (surroundings worktreePath id)
        (Undelivered id) world := by
  have kept := @steady worktreePath id fun delivered _ => delivered = none
  unfold Worker.invoke
  split
  · refine kept.calls here (fun _ here => here) fun answer before after here answered => ?_
    cases answer with
    | ok result =>
        obtain ⟨delivered, named⟩ := Ends.kept answered
        exact undelivered_ok ((congrFun delivered id).trans here) named
    | error error =>
        obtain rfl : after = before := answered
        exact undelivered_error here
  · exact kept.asks trivial here fun _ after here => watch_undelivered here

/-- Nothing is delivered yet, and the artifact of the result is the attempt's own. -/
def Owns (worktreePath : Id → String) (id : Id) (answered : Except Failure Result) (world : World)
    : Prop :=
  world.delivered id = none
  ∧ ∀ result, answered = .ok result → ∀ path ∈ result.artifactRef, Own worktreePath id world path

/-- The artifact is the patch, or what the agent has named. -/
theorem owned_ends {answered : Except Failure Result} (here : world.delivered id = none)
    (owns
      : ∀ result, answered = .ok result
        → (∀ path ∈ result.artifactRef, path = patchPath (worktreePath id))
          ∨ world.named id = result.artifactRef)
    : (pure answered : Run (Except Failure Result)).Ensures (surroundings worktreePath id)
        (Owns worktreePath id) world := by
  refine (steady fun delivered named =>
      delivered = none
      ∧ ∀ result, answered = .ok result
        → (∀ path ∈ result.artifactRef, path = patchPath (worktreePath id))
          ∨ named = result.artifactRef).ends ⟨here, owns⟩ fun later kept => ⟨kept.1, ?_⟩
  intro result same path mem
  rcases kept.2 result same with patch | named
  · exact .inl (patch path mem)
  · exact .inr (named.trans mem)

theorem capture_owns (here : world.delivered id = none)
    (named : world.named id = result.artifactRef)
    (there : ∀ path ∈ worktree, path.2 = worktreePath id)
    : (Worker.capture worktree result).Ensures (surroundings worktreePath id)
        (Owns worktreePath id) world := by
  have kept :=
    @steady worktreePath id fun delivered named => delivered = none ∧ named = result.artifactRef
  have asIs
      : (pure (.ok result) : Run (Except Failure Result)).Ensures (surroundings worktreePath id)
          (Owns worktreePath id) world := by
    refine owned_ends here fun other same => .inr ?_
    cases same
    exact named
  unfold Worker.capture
  cases worktree with
  | none => exact asIs
  | some place =>
      obtain ⟨repoId, path⟩ := place
      have same : path = worktreePath id := there _ rfl
      subst same
      dsimp only
      split
      · refine kept.calls ⟨here, named⟩ (fun _ here => ⟨rfl, here.1⟩)
          fun answer before after here answered => ?_
        cases answer with
        | error error =>
            have delivered : after.delivered = before.delivered := by
              rcases answered with rfl | ⟨data, rfl⟩
              · rfl
              · rfl
            exact owned_ends ((congrFun delivered id).trans here.1) nofun
        | ok artifactRef =>
            cases artifactRef with
            | none =>
                obtain rfl : after = before := answered
                refine owned_ends here.1 fun other same => .inl ?_
                cases same
                exact fun _ mem => by cases mem
            | some path =>
                obtain ⟨rfl, data, rfl⟩ := answered
                refine owned_ends here.1 fun other same => .inl ?_
                cases same
                exact fun _ mem => by cases mem; rfl
      · exact asIs

/-- Recording a result unlinks nothing but an artifact of the attempt's own that is not delivered.
-/
theorem finalize_ensures (here : Owns worktreePath id (.ok result) world)
    : (Worker.finalize id result).Ensures (surroundings worktreePath id)
      (fun _ _ => True) world := by
  have stays {Value : Type} (value : Value) (world : World)
      : (pure value : Run Value).Ensures (surroundings worktreePath id) (fun _ _ => True) world :=
    fun _ _ => trivial
  have kept := @steady worktreePath id fun delivered named =>
    delivered = none
    ∧ ∀ path ∈ result.artifactRef, path = patchPath (worktreePath id) ∨ named = some path
  have lost {world : World}
      (here
        : world.delivered id = none
          ∧ ∀ path ∈ result.artifactRef,
              path = patchPath (worktreePath id) ∨ world.named id = some path)
      : (Worker.conclude result (.error .lostLease)).Ensures (surroundings worktreePath id)
          (fun _ _ => True) world := by
    refine kept.calls here (fun later here => ?_) fun _ _ after _ _ => stays _ after
    cases named : result.artifactRef with
    | none => exact trivial
    | some path => exact ⟨here.1, here.2 path named⟩
  have concludes {answer : Except Failure Unit} {world : World}
      (here
        : answer = .error .lostLease
          → world.delivered id = none
            ∧ ∀ path ∈ result.artifactRef,
                path = patchPath (worktreePath id) ∨ world.named id = some path)
      : (Worker.conclude result answer).Ensures (surroundings worktreePath id)
          (fun _ _ => True) world := by
    cases answer with
    | ok _ => exact stays _ world
    | error failure =>
        cases failure with
        | lostLease => exact lost (here rfl)
        | other error => exact stays _ world
  have begun := And.intro here.1 (here.2 result rfl)
  unfold Worker.finalize
  split
  · refine kept.calls begun (fun _ here => ⟨rfl, here⟩) fun answer before after here answered => ?_
    refine concludes fun refused => ?_
    subst refused
    obtain rfl : after = before := answered
    exact here
  · exact kept.asks rfl begun fun answer after here => concludes fun _ => here

theorem carryOut_ensures {heartbeatInterval : Option ℚ} {rounds : ℕ}
    (here : world.delivered id = none) (there : ∀ path ∈ worktree, path.2 = worktreePath id)
    : (Worker.carryOut id job worktree heartbeatInterval rounds).Ensures
        (surroundings worktreePath id) (fun _ _ => True) world := by
  refine (invoke_undelivered here).bind fun answered later undelivered => ?_
  cases answered with
  | error failure =>
      cases failure with
      | lostLease => exact fun _ _ => trivial
      | other error => exact fun _ _ => trivial
  | ok result =>
      refine (capture_owns undelivered.1 (undelivered.2 result rfl) there).bind
        fun captured later owns => ?_
      cases captured with
      | error failure => exact fun _ _ => trivial
      | ok result => exact finalize_ensures owns

/-- A worker never touches a file of another attempt, or its own once it is delivered. -/
theorem processAttempt_ensures (isWorkspaceActor : String → Bool) {heartbeatInterval : Option ℚ}
    {rounds : ℕ} (here : world.delivered id = none)
    : (Worker.processAttempt isWorkspaceActor worktreePath id heartbeatInterval rounds).Ensures
        (surroundings worktreePath id) (fun _ _ => True) world := by
  have kept := @steady worktreePath id fun delivered _ => delivered = none
  refine kept.asks trivial here fun answer after here => ?_
  cases answer with
  | error error => exact fun _ _ => trivial
  | ok found =>
      cases found with
      | none => exact fun _ _ => trivial
      | some job =>
          dsimp only
          cases place : Worker.worktreeOf isWorkspaceActor worktreePath id job with
          | none => exact @carryOut_ensures _ _ _ job none _ _ here nofun
          | some worktree =>
              obtain ⟨repoId, path⟩ := worktree
              have same : path = worktreePath id := by
                unfold Worker.worktreeOf at place
                split at place
                · obtain ⟨_, _, same⟩ := Option.map_eq_some_iff.mp place
                  cases same
                  rfl
                · cases place
              subst same
              refine kept.asks rfl here fun made after here => ?_
              have cleans {next : Except String Unit → Run (Except Failure (Option ResultStatus))}
                  (ends
                    : ∀ cleaned after,
                        (next cleaned).Ensures (surroundings worktreePath id)
                        (fun _ _ => True) after)
                  (world : World)
                  : (Worker.ask (.cleanup repoId (worktreePath id)) >>= next).Ensures
                      (surroundings worktreePath id) (fun _ _ => True) world :=
                (steady fun _ _ => True).asks trivial trivial fun cleaned after _ =>
                  ends cleaned after
              cases made with
              | error error =>
                  refine cleans (fun cleaned after => ?_) after
                  cases cleaned with
                  | ok _ => exact fun _ _ => trivial
                  | error error => exact fun _ _ => trivial
              | ok _ =>
                  refine (@carryOut_ensures _ _ _ job _ _ _ here ?_).bind fun ended later _ => ?_
                  · exact fun path mem => by cases mem; rfl
                  · refine cleans (fun cleaned after => ?_) later
                    cases cleaned with
                    | ok _ => exact fun _ _ => trivial
                    | error error => exact fun _ _ => trivial

end Contract

end Workspace
