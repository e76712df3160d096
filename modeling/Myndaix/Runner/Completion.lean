import Myndaix.Runner.Submission

/-! What a whole generation comes to: at most one submit request, and if the server completed it,
the cost that its status names, which the result keeps only together with a URL.
-/

namespace Runner

/-- A generation that has come to its end, with all that was answered on the way. -/
inductive Ending : Type where
  | returned (result : Result)
  | raised (text : String)

def Ending.stage : Ending → Stage
  | .returned result => .returned result
  | .raised text => .raised text

structure Generation (python : Python) (call : HfCall) where
  answers : List Answer
  ending : Ending
  followed : follow python call call.start answers = some ending.stage

/-- The cost that the status of a completed generation names, if it is a finite number. -/
def statusCost (python : Python) (data : List (String × Json)) : Option String :=
  match Json.get data "cost" with
  | .number literal => (some literal).filter python.isfinite
  | _ => none

/-- The answer reports that the generation is completed. -/
def completedData (python : Python) : Stage → Answer → Option (List (String × Json))
  | .requesting _ _, .response statusCode _ (.ok (.object data)) =>
      if statusCode = 200 ∧ pollStatus python (Json.get data "status") = "completed" then some data
      else none
  | _, _ => none

/-- The status with which the generation was completed, if it was. -/
def completion (python : Python) (call : HfCall) : Stage → List Answer
    → Option (List (String × Json))
  | _, [] => none
  | stage, answer :: answers =>
      match completedData python stage answer with
      | some data => some data
      | none =>
          (advance python call stage answer).bind (fun next => completion python call next answers)

/-- How often the submit request was sent up to an answer. -/
def submissions (python : Python) (call : HfCall) : Stage → List Answer → Nat
  | _, [] => 0
  | stage, answer :: answers =>
      stage.submits.toNat
        + ((advance python call stage answer).map
            (fun next => submissions python call next answers)).getD 0

theorem truthy_some {text : Option String} {url : String} (filled : truthy text = some url)
    : truthy (some url) = some url := by
  unfold truthy at filled ⊢
  rw [Option.filter_eq_some_iff] at filled ⊢
  exact ⟨rfl, filled.2⟩

variable {data : List (String × Json)}

/-- A URL is not empty, be it the video's or the first image's. -/
theorem artifactUrl_truthy {url : String} (found : artifactUrl data = some url)
    : truthy (some url) = some url := by
  unfold artifactUrl at found
  dsimp only at found
  rcases Option.or_eq_some_iff.mp found with video | ⟨-, image⟩
  · split at video
    · split at video
      · exact truthy_some video
      · cases video
    · cases video
  · split at image
    · split at image
      · split at image
        · exact truthy_some image
        · cases image
      · cases image
    · cases image

section Completion

variable {python : Python} {call : HfCall} {stage next : Stage} {answer : Answer}
  {answers : List Answer}

/-- What a completed generation returns. -/
def completedStage (python : Python) (data : List (String × Json)) : Stage :=
  match artifactUrl data with
  | none => .returned (terminal "higgsfield completed but no video/image url" .error none)
  | some url =>
      .returned {
        status := .ok,
        text := url,
        errorClass := none,
        artifactRef := some url,
        exitCode := none,
        cost := statusCost python data
      }

theorem completedData_some (completed : completedData python stage answer = some data)
    : advance python call stage answer = some (completedStage python data) := by
  unfold completedData at completed
  split at completed
  · split at completed
    · next job fails statusCode text read ready =>
        cases completed
        obtain ⟨rfl, status⟩ := ready
        simp only [advance, if_pos, polled, status, polledStatus]
        rfl
    · cases completed
  · cases completed

/-- The stage has returned, and well. -/
def Stage.fine : Stage → Bool
  | .returned result => result.status = .ok
  | _ => false

theorem accept_unfine (json : Except String Json) : (accept python call json).fine = false := by
  unfold accept
  cases json with
  | error text => rfl
  | ok body =>
      cases body with
      | object fields =>
          dsimp only
          split <;> rfl
      | null | bool | number | string | array => rfl

theorem submitted_unfine (advanced : submitted python call answer = some next)
    : next.fine = false := by
  cases answer with
  | unreachable | httpError | raised =>
      cases advanced
      rfl
  | response statusCode text json =>
      simp only [submitted] at advanced
      split at advanced
      · cases advanced
        rfl
      · cases advanced
        exact accept_unfine json
  | checked | clock | slept => cases advanced

theorem pollFailed_unfine (job : Submitted) (fails : Int) (err : String)
    : (pollFailed call job fails err).fine = false := by
  unfold pollFailed
  split <;> rfl

/-- Of all statuses only a completed one is fine. -/
theorem polledStatus_fine {job : Submitted} {status : String}
    (fine : (polledStatus python job data status).fine = true)
    : status = "completed" := by
  unfold polledStatus at fine
  split at fine
  · assumption
  · split at fine
    · cases fine
    · split at fine <;> cases fine

theorem polled_fine {job : Submitted} {json : Except String Json}
    (fine : (polled python job json).fine = true)
    : ∃ data, json = .ok (.object data)
      ∧ pollStatus python (Json.get data "status") = "completed" := by
  cases json with
  | error text => cases fine
  | ok body =>
      cases body with
      | object data => exact ⟨data, rfl, polledStatus_fine fine⟩
      | null | bool | number | string | array => cases fine

/-- The step that returns well is a completed status. -/
theorem advance_fine (fine : next.fine = true)
    (advanced : advance python call stage answer = some next)
    : ∃ data, completedData python stage answer = some data := by
  cases stage with
  | checking url urls =>
      cases answer with
      | checked reason =>
          cases reason with
          | none =>
              cases urls <;>
                cases advanced <;>
                cases fine
          | some reason =>
              cases advanced
              cases fine
      | raised type text =>
          cases advanced
          cases fine
      | _ => cases advanced
  | submitting => exact absurd fine (by simp [submitted_unfine advanced])
  | looping job fails =>
      cases answer with
      | clock now =>
          simp only [advance] at advanced
          split at advanced <;> cases advanced <;> cases fine
      | _ => cases advanced
  | requesting job fails =>
      cases answer with
      | response statusCode text json =>
          simp only [advance] at advanced
          split at advanced
          · next answered =>
              cases advanced
              obtain ⟨data, rfl, status⟩ := polled_fine fine
              exact ⟨data, if_pos ⟨answered, status⟩⟩
          · cases advanced
            exact absurd fine (by simp [pollFailed_unfine])
      | unreachable | httpError =>
          cases advanced
          exact absurd fine (by simp [pollFailed_unfine])
      | raised type text =>
          cases advanced
          cases fine
      | checked | clock | slept => cases advanced
  | sleeping job fails =>
      cases answer with
      | slept | raised =>
          cases advanced
          cases fine
      | _ => cases advanced
  | cancelling job =>
      cases answer with
      | response | unreachable | httpError | raised =>
          cases advanced
          cases fine
      | checked | clock | slept => cases advanced
  | returned | raised => cases answer <;> cases advanced

-- Whole generations

/-- Nothing comes after a return. -/
theorem follow_returned {result : Result}
    (followed : follow python call (.returned result) answers = some next)
    : answers = [] ∧ next = .returned result := by
  cases answers with
  | nil => exact ⟨rfl, (Option.some.inj followed).symm⟩
  | cons answer answers =>
      obtain ⟨middle, advanced, -⟩ := Option.bind_eq_some_iff.mp followed
      cases answer <;> cases advanced

theorem completedStage_over (data : List (String × Json))
    : ∃ result, completedStage python data = .returned result := by
  unfold completedStage
  cases artifactUrl data with
  | none => exact ⟨_, rfl⟩
  | some url => exact ⟨_, rfl⟩

/-- A completed status is the last answer, and decides the result; by induction on the answers. -/
theorem follow_completion (completed : completion python call stage answers = some data)
    (followed : follow python call stage answers = some next)
    : next = completedStage python data := by
  induction answers generalizing stage with
  | nil => cases completed
  | cons answer answers induction =>
      obtain ⟨middle, advanced, followed⟩ := Option.bind_eq_some_iff.mp followed
      unfold completion at completed
      cases reported : completedData python stage answer with
      | some found =>
          rw [reported] at completed
          cases completed
          rw [completedData_some reported] at advanced
          cases advanced
          obtain ⟨result, isOver⟩ := @completedStage_over python data
          rw [isOver] at followed ⊢
          exact (follow_returned followed).2
      | none =>
          rw [reported, advanced] at completed
          exact induction completed followed

/-- A good result comes of a completed status; by induction on the answers. -/
theorem follow_fine (unfine : stage.fine = false) (fine : next.fine = true)
    (followed : follow python call stage answers = some next)
    : ∃ data, completion python call stage answers = some data := by
  induction answers generalizing stage with
  | nil =>
      cases followed
      rw [unfine] at fine
      cases fine
  | cons answer answers induction =>
      obtain ⟨middle, advanced, followed⟩ := Option.bind_eq_some_iff.mp followed
      unfold completion
      cases reported : completedData python stage answer with
      | some data => exact ⟨data, rfl⟩
      | none =>
          rw [advanced]
          refine induction ?_ followed
          by_contra ended
          obtain ⟨data, some⟩ := advance_fine (by simpa using ended) advanced
          rw [reported] at some
          cases some

/-- Past the URL guard the submit request is sent at most where the runner stands. -/
theorem submissions_past (past : stage.guards = false)
    : submissions python call stage answers ≤ stage.submits.toNat := by
  induction answers generalizing stage with
  | nil => exact Nat.zero_le _
  | cons answer answers induction =>
      unfold submissions
      cases advanced : advance python call stage answer with
      | none => simp
      | some next =>
          obtain ⟨gone, sent⟩ := advance_past past advanced
          have rest := induction gone
          rw [sent] at rest
          exact Nat.add_le_add_left rest stage.submits.toNat

/-- One call of the generator sends at most one submit request. -/
theorem submissions_le_one : submissions python call stage answers ≤ 1 := by
  induction answers generalizing stage with
  | nil => exact Nat.zero_le _
  | cons answer answers induction =>
      cases guards : stage.guards with
      | false =>
          refine Nat.le_trans (submissions_past guards) ?_
          cases stage.submits <;> decide
      | true =>
          have waits : stage.submits = false := by
            cases stage <;> first | rfl | cases guards
          unfold submissions
          rw [waits]
          cases advance python call stage answer with
          | none => simp
          | some next => simpa using induction

end Completion

namespace Generation

variable {python : Python} {call : HfCall} (generation : Generation python call)

/-- The status with which the server completed the generation, if it did. -/
def completion : Option (List (String × Json)) :=
  Runner.completion python call call.start generation.answers

theorem completion_some (completed : generation.completion = some data)
    : generation.ending.stage = completedStage python data :=
  follow_completion completed generation.followed

/-- A generation whose call raised was not completed. -/
theorem completion_raised {text : String} (raised : generation.ending = .raised text)
    : generation.completion = none := by
  rw [Option.eq_none_iff_forall_ne_some]
  intro data completed
  have isOver := generation.completion_some completed
  obtain ⟨result, returned⟩ := @completedStage_over python data
  rw [raised, returned] at isOver
  cases isOver

/-- A good result has the URL and the cost of the completed status. -/
theorem returned_ok {result : Result} (returned : generation.ending = .returned result)
    (ok : result.status = .ok)
    : ∃ data url, generation.completion = some data ∧ artifactUrl data = some url
      ∧ result.artifactRef = some url ∧ result.cost = statusCost python data := by
  have followed := generation.followed
  rw [returned] at followed
  have fine : (Ending.returned result).stage.fine = true := decide_eq_true ok
  obtain ⟨data, completed⟩ := follow_fine (by rfl) fine followed
  have same := follow_completion completed followed
  unfold completedStage at same
  cases found : artifactUrl data with
  | none =>
      rw [found] at same
      cases same
      cases ok
  | some url =>
      rw [found] at same
      cases same
      exact ⟨data, url, completed, found, rfl, rfl⟩

/-- A completed generation that comes to any other result has no URL. -/
theorem returned_error {result : Result} (returned : generation.ending = .returned result)
    (failed : result.status ≠ .ok) (completed : generation.completion = some data)
    : artifactUrl data = none := by
  have same := generation.completion_some completed
  rw [returned] at same
  by_contra some
  obtain ⟨url, found⟩ := Option.ne_none_iff_exists'.mp some
  unfold completedStage at same
  rw [found] at same
  cases same
  exact failed rfl

end Generation

end Runner
