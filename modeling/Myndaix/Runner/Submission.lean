import Myndaix.Runner.Higgsfield

/-! The submit request is sent once, and once it may have reached the server nothing the runner
returns asks for another try.
-/

namespace Runner

open Ledger (ErrorClass)

/-- What is known of `httpx`: how a request ended tells whether it may have reached the server,
and the exceptions of connecting, and of waiting for a connection, are raised before it is sent.
-/
structure Httpx where
  arrived : Answer → Bool
  unsent : ∀ error text, arrived (.unreachable error text) = false

/-- The result asks for another try. -/
def Result.Retryable (result : Result) : Prop :=
  result.errorClass = some .retryable

/-- The submit request was sent, and may have reached the server. -/
def MayHaveArrived (httpx : Httpx) (python : Python) (call : HfCall) (answers : List Answer)
    : Prop :=
  ∃ before answer after,
    answers = before ++ answer :: after
    ∧ follow python call call.start before = some .submitting
    ∧ httpx.arrived answer = true

-- After the submit

/-- The runner is in its URL guard. -/
def Stage.guards : Stage → Bool
  | .checking .. => true
  | _ => false

/-- The runner has just sent the submit request. -/
def Stage.submits : Stage → Bool
  | .submitting => true
  | _ => false

/-- The submit request is over, and if the runner has returned, not for another try. -/
def Stage.Charged : Stage → Prop
  | .checking .. | .submitting => False
  | .looping .. | .requesting .. | .sleeping .. | .cancelling .. | .raised _ => True
  | .returned result => ¬result.Retryable

section Advance

variable {python : Python} {call : HfCall} {stage next : Stage} {answer : Answer}

theorem terminal_not_retryable (text : String) (status : Ledger.ResultStatus)
    (exitCode : Option Int)
    : ¬(terminal text status exitCode).Retryable := by
  simp [Result.Retryable, terminal]

theorem accept_charged (json : Except String Json) : (accept python call json).Charged := by
  unfold accept
  cases json with
  | error text => exact terminal_not_retryable _ _ _
  | ok body =>
      cases body with
      | object fields =>
          dsimp only
          split
          · trivial
          · exact terminal_not_retryable _ _ _
      | null | bool | number | string | array => exact terminal_not_retryable _ _ _

/-- Only a request that was not sent is tried again. -/
theorem submitted_charged {httpx : Httpx} (arrived : httpx.arrived answer = true)
    (advanced : submitted python call answer = some next)
    : next.Charged := by
  cases answer with
  | unreachable error text =>
      rw [httpx.unsent] at arrived
      cases arrived
  | httpError text =>
      cases advanced
      exact terminal_not_retryable _ _ _
  | response statusCode text json =>
      simp only [submitted] at advanced
      split at advanced
      · cases advanced
        exact terminal_not_retryable _ _ _
      · cases advanced
        exact accept_charged json
  | raised type text =>
      cases advanced
      trivial
  | checked | clock | slept => cases advanced

theorem pollFailed_charged (job : Submitted) (fails : Int) (err : String)
    : (pollFailed call job fails err).Charged := by
  unfold pollFailed
  split
  · exact terminal_not_retryable _ _ _
  · trivial

theorem polledStatus_charged (job : Submitted) (data : List (String × Json)) (status : String)
    : (polledStatus python job data status).Charged := by
  unfold polledStatus
  split
  · split
    · exact terminal_not_retryable _ _ _
    · simp [Stage.Charged, Result.Retryable]
  split
  · exact terminal_not_retryable _ _ _
  split
  · exact terminal_not_retryable _ _ _
  · trivial

theorem polled_charged (job : Submitted) (json : Except String Json)
    : (polled python job json).Charged := by
  cases json with
  | error text => exact terminal_not_retryable _ _ _
  | ok body =>
      cases body with
      | object data => exact polledStatus_charged job data _
      | null | bool | number | string | array => exact terminal_not_retryable _ _ _

/-- Nothing that comes after the submit leads back before it. -/
theorem advance_charged (charged : stage.Charged)
    (advanced : advance python call stage answer = some next)
    : next.Charged := by
  cases stage with
  | checking | submitting => exact charged.elim
  | looping job fails =>
      cases answer with
      | clock now =>
          simp only [advance] at advanced
          split at advanced <;> cases advanced <;> trivial
      | _ => cases advanced
  | requesting job fails =>
      cases answer with
      | response statusCode text json =>
          simp only [advance] at advanced
          split at advanced
          · cases advanced
            exact polled_charged job json
          · cases advanced
            exact pollFailed_charged job fails _
      | unreachable | httpError =>
          cases advanced
          exact pollFailed_charged job fails _
      | raised type text =>
          cases advanced
          exact terminal_not_retryable _ _ _
      | checked | clock | slept => cases advanced
  | sleeping job fails =>
      cases answer with
      | slept =>
          cases advanced
          trivial
      | raised type text =>
          cases advanced
          exact terminal_not_retryable _ _ _
      | _ => cases advanced
  | cancelling job =>
      cases answer with
      | response | unreachable | httpError | raised =>
          cases advanced
          exact terminal_not_retryable _ _ _
      | checked | clock | slept => cases advanced
  | returned | raised => cases answer <;> cases advanced

/-- A runner past the URL guard never comes to sending the submit request again. -/
theorem advance_past (past : stage.guards = false)
    (advanced : advance python call stage answer = some next)
    : next.guards = false ∧ next.submits = false := by
  have charged_past {stage : Stage} (charged : stage.Charged)
      : stage.guards = false ∧ stage.submits = false := by
    cases stage with
    | checking | submitting => exact charged.elim
    | looping | requesting | sleeping | cancelling | returned | raised => exact ⟨rfl, rfl⟩
  cases stage with
  | checking url urls => cases past
  | submitting =>
      cases answer with
      | unreachable error text =>
          cases advanced
          exact ⟨rfl, rfl⟩
      | httpError text =>
          cases advanced
          exact ⟨rfl, rfl⟩
      | response statusCode text json =>
          simp only [advance, submitted] at advanced
          split at advanced
          · cases advanced
            exact ⟨rfl, rfl⟩
          · cases advanced
            exact charged_past (accept_charged json)
      | raised type text =>
          cases advanced
          exact ⟨rfl, rfl⟩
      | checked | clock | slept => cases advanced
  | looping job fails | requesting job fails | sleeping job fails =>
      exact charged_past (advance_charged (by trivial) advanced)
  | cancelling job => exact charged_past (advance_charged (by trivial) advanced)
  | raised text => cases answer <;> cases advanced
  | returned result => cases answer <;> cases advanced

end Advance

-- Whole runs

section Follow

variable {python : Python} {call : HfCall} {stage next : Stage}

theorem follow_append (before after : List Answer)
    : follow python call stage (before ++ after)
      = (follow python call stage before).bind (fun next => follow python call next after) := by
  induction before generalizing stage with
  | nil => rfl
  | cons answer before ih =>
      simp only [List.cons_append, follow]
      cases advance python call stage answer with
      | none => rfl
      | some next => exact ih

/-- By induction on the answers. -/
theorem follow_charged (charged : stage.Charged) {answers : List Answer}
    (followed : follow python call stage answers = some next)
    : next.Charged := by
  induction answers generalizing stage with
  | nil =>
      cases followed
      exact charged
  | cons answer answers ih =>
      obtain ⟨middle, advanced, followed⟩ := Option.bind_eq_some_iff.mp followed
      exact ih (advance_charged charged advanced) followed

/-- Once the submit request may have reached the server, the runner returns no result that asks
for another try.
-/
theorem arrived_not_retryable {httpx : Httpx} {answers : List Answer} {result : Result}
    (arrived : MayHaveArrived httpx python call answers)
    (returned : follow python call call.start answers = some (.returned result))
    : ¬result.Retryable := by
  obtain ⟨before, answer, after, rfl, submitting, arrived⟩ := arrived
  rw [follow_append, submitting] at returned
  simp only [Option.bind_some, follow] at returned
  obtain ⟨middle, advanced, followed⟩ := Option.bind_eq_some_iff.mp returned
  exact follow_charged (submitted_charged arrived advanced) followed

end Follow

end Runner
