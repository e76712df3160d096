import Myndaix.Ledger.Schema

/-! The runner of the paid media queue: one submit request that charges, then polling until the
job is over. The runner waits for one answer after the other, so it is a step function from what
it waits for and the answer that comes; cancelling it means that no answer comes any more.
-/

namespace Runner

open Ledger (ErrorClass ResultStatus)

-- Values

/-- `contracts.Result` with what only the runner's callers read of it. How long the call took
is left out.
-/
structure Result extends Ledger.Result where
  exitCode : Option Int
  cost : Option String

/-- An error that must not be tried again. -/
def terminal (text : String) (status : ResultStatus) (exitCode : Option Int) : Result where
  status := status
  text := text
  errorClass := some .terminal
  artifactRef := none
  exitCode := exitCode
  cost := none

inductive Json : Type where
  | null
  | bool (value : Bool)
  | number (literal : String)
  | string (value : String)
  | array (items : List Json)
  | object (fields : List (String × Json))

/-- `data.get(name)` on an object; of two fields with one name the later counts. -/
def Json.get (fields : List (String × Json)) (name : String) : Json :=
  ((fields.reverse.find? (fun field => field.1 = name)).map Prod.snd).getD .null

/-- What Python makes of values, as far as the runner asks. -/
structure Python where
  /-- `str(value)`. -/
  str : Json → String
  /-- `repr(text)`. -/
  repr : String → String
  lower : String → String
  /-- A number's value is zero. -/
  isZero : String → Bool
  /-- `math.isfinite` of a number's value; what is no number has none. -/
  isfinite : String → Bool
  /-- `urlparse`: the scheme, the host and the port; or none for a `ValueError`. -/
  urlparse : String → Option (String × Option String × Option Int)
  /-- The text of the `TypeError` or `KeyError` of `value["request_id"]`. -/
  subscriptError : Json → String
  /-- The text of the `AttributeError` of `value.get`. -/
  attributeError : Json → String

/-- An optional text that Python takes for true. -/
def truthy (text : Option String) : Option String :=
  text.filter (fun text => text ≠ "")

-- The call

/-- The arguments of `_hf_generate`; how long it sleeps between two polls is left out. -/
structure HfCall where
  base : String
  application : String
  key : String
  prompt : String
  imageUrl : String
  deadline : Int
  motionId : Option String
  motionStrength : Option String
  endImageUrl : Option String
  retryMax : Int

/-- `s.rstrip("/")`. -/
def rstripSlash (text : String) : String :=
  String.ofList (text.toList.reverse.dropWhile (fun char => char = '/')).reverse

/-- `s.lstrip("/")`. -/
def lstripSlash (text : String) : String :=
  String.ofList (text.toList.dropWhile (fun char => char = '/'))

/-- `_hf_pin_url`: a returned URL counts only with the origin of the base. -/
def pinUrl (python : Python) (returned : Json) (base fallbackPath : String) : String :=
  let fallback := rstripSlash base ++ fallbackPath
  match returned with
  | .string url =>
      if url = "" then fallback
      else
        match python.urlparse url, python.urlparse base with
        | some origin, some own =>
            if (origin.1 = "http" ∨ origin.1 = "https") ∧ origin = own then url else fallback
        | _, _ => fallback
  | _ => fallback

/-- `_hf_artifact_url`. -/
def artifactUrl (data : List (String × Json)) : Option String :=
  let url : Json → Option String
    | .object fields =>
        match Json.get fields "url" with
        | .string url => truthy (some url)
        | _ => none
    | _ => none
  (url (Json.get data "video")).or
    (match Json.get data "images" with
    | .array (image :: _) => url image
    | _ => none)

-- What the runner asks and gets

/-- The exceptions of `httpx` that the submit takes for "not sent". -/
inductive Unreachable : Type where
  | connectError
  | connectTimeout
  | poolTimeout

/-- What the runner waits for can end in: the verdict of the URL guard, a time, a response, an
exception of `httpx`, any other exception, or nothing but its end.
-/
inductive Answer : Type where
  | checked (reason : Option String)
  | clock (now : Int)
  | response (statusCode : Int) (text : String) (json : Except String Json)
  | unreachable (error : Unreachable) (text : String)
  | httpError (text : String)
  | raised (type text : String)
  | slept

inductive Request : Type where
  | rejectUnsafeUrl (url : String)
  | submit (url key prompt imageUrl : String) (motionId motionStrength endImageUrl : Option String)
  | monotonic
  | poll (url key : String)
  | cancel (url key : String)
  | sleep

/-- The accepted submit: its id, and the URLs to poll and to cancel. -/
structure Submitted where
  requestId : String
  statusUrl : String
  cancelUrl : String

/-- What the runner is waiting for. -/
inductive Stage : Type where
  | checking (url : String) (urls : List String)
  | submitting
  | looping (job : Submitted) (fails : Int)
  | requesting (job : Submitted) (fails : Int)
  | sleeping (job : Submitted) (fails : Int)
  | cancelling (job : Submitted)
  | returned (result : Result)
  | raised (text : String)

def activeStates : List String :=
  ["queued", "in_progress"]

/-- The image URL is there, so `_hf_generate` starts with the URL guard. -/
def HfCall.start (call : HfCall) : Stage :=
  .checking call.imageUrl (truthy call.endImageUrl).toList

/-- What the runner sends in a stage. -/
def Stage.request (python : Python) (call : HfCall) : Stage → Option Request
  | .checking url _ => some (.rejectUnsafeUrl url)
  | .submitting =>
      some (.submit (rstripSlash call.base ++ "/" ++ lstripSlash call.application) call.key
        call.prompt call.imageUrl (truthy call.motionId)
        (call.motionStrength.filter python.isfinite) (truthy call.endImageUrl))
  | .looping .. => some .monotonic
  | .requesting job _ => some (.poll job.statusUrl call.key)
  | .sleeping .. => some .sleep
  | .cancelling job => some (.cancel job.cancelUrl call.key)
  | .returned _ | .raised _ => none

-- How the runner goes on

section Advance

variable (python : Python) (call : HfCall)

/-- The body of an accepted submit. -/
def accept (json : Except String Json) : Stage :=
  let unexpected (text : String) : Stage :=
    .returned (terminal s!"higgsfield submit: unexpected shape: {text}" .error none)
  match json with
  | .error text => unexpected text
  | .ok (.object fields) =>
      if fields.any (fun field => field.1 = "request_id") then
        let requestId := python.str (Json.get fields "request_id")
        .looping
          {
            requestId := requestId,
            statusUrl :=
              pinUrl python (Json.get fields "status_url") call.base
                s!"/requests/{requestId}/status",
            cancelUrl :=
              pinUrl python (Json.get fields "cancel_url") call.base
                s!"/requests/{requestId}/cancel"
          }
          0
      else unexpected (python.subscriptError (.object fields))
  | .ok other => unexpected (python.subscriptError other)

/-- How the submit request ended. -/
def submitted : Answer → Option Stage
  | .unreachable _ text =>
      some (.returned {
        status := .error,
        text := s!"higgsfield submit unreachable: {text}",
        errorClass := some .retryable,
        artifactRef := none,
        exitCode := none,
        cost := none
      })
  | .httpError text =>
      some (.returned (terminal
        s!"higgsfield submit ambiguous failure (fail-closed, no retry): {text}" .error none))
  | .response statusCode text json =>
      if 300 ≤ statusCode then
        some (.returned (terminal
          s!"higgsfield submit {statusCode} (fail-closed, no retry): {text.take 300}" .error
          (some statusCode)))
      else some (accept python call json)
  | .raised _ text => some (.raised text)
  | _ => none

/-- The backstop of the poll block. -/
def backstop (type text : String) : Stage :=
  .returned (terminal
    s!"higgsfield poll: unexpected post-charge error (charged, no retry): {type}: {text}" .error
    none)

/-- A poll that failed: once more, unless too many have failed in a row. -/
def pollFailed (job : Submitted) (fails : Int) (err : String) : Stage :=
  if call.retryMax < fails + 1 then
    .returned (terminal s!"higgsfield {err} (charged, no retry)" .error none)
  else .sleeping job (fails + 1)

/-- `str(data.get("status") or "").lower()`. -/
def pollStatus (value : Json) : String :=
  match value with
  | .null | .bool false | .string "" | .array [] | .object [] => ""
  | .number literal => if python.isZero literal then "" else python.lower (python.str value)
  | _ => python.lower (python.str value)

/-- A poll that was answered with the job's status. -/
def polledStatus (job : Submitted) (data : List (String × Json)) (status : String) : Stage :=
  if status = "completed" then
    match artifactUrl data with
    | none => .returned (terminal "higgsfield completed but no video/image url" .error none)
    | some url =>
        .returned {
          status := .ok,
          text := url,
          errorClass := none,
          artifactRef := some url,
          exitCode := none,
          cost :=
            match Json.get data "cost" with
            | .number literal => (some literal).filter python.isfinite
            | _ => none
        }
  else if status = "failed" ∨ status = "nsfw" then
    .returned (terminal s!"higgsfield {status} (request_id={job.requestId})" .error none)
  else if status ≠ "" ∧ status ∉ activeStates then
    .returned (terminal
      s!"higgsfield unknown status {python.repr status} (request_id={job.requestId})" .error
      none)
  else .sleeping job 0

/-- A poll that was answered. -/
def polled (job : Submitted) (json : Except String Json) : Stage :=
  let badPayload (text : String) : Stage :=
    .returned (terminal s!"higgsfield poll: bad payload (charged): {text}" .error none)
  match json with
  | .error text => badPayload text
  | .ok (.object data) => polledStatus python job data (pollStatus python (Json.get data "status"))
  | .ok other => badPayload (python.attributeError other)

/-- How the runner goes on when what it waits for ends so. -/
def advance : Stage → Answer → Option Stage
  | .checking _ urls, .checked none =>
      match urls with
      | [] => some .submitting
      | url :: urls => some (.checking url urls)
  | .checking _ _, .checked (some reason) =>
      some (.returned (terminal s!"image_url rejected: {reason}" .error none))
  | .checking _ _, .raised _ text => some (.raised text)
  | .submitting, answer => submitted python call answer
  | .looping job fails, .clock now =>
      if call.deadline ≤ now then some (.cancelling job) else some (.requesting job fails)
  | .requesting job fails, .response statusCode text json =>
      if statusCode = 200 then some (polled python job json)
      else some (pollFailed call job fails s!"poll {statusCode}: {text.take 200}")
  | .requesting job fails, .unreachable _ text =>
      some (pollFailed call job fails s!"poll error: {text}")
  | .requesting job fails, .httpError text =>
      some (pollFailed call job fails s!"poll error: {text}")
  | .requesting _ _, .raised type text => some (backstop type text)
  | .sleeping job fails, .slept => some (.looping job fails)
  | .sleeping _ _, .raised type text => some (backstop type text)
  -- The cancel endpoint is asked once, and whatever comes of it is swallowed.
  | .cancelling job, .response _ _ _ | .cancelling job, .unreachable _ _
  | .cancelling job, .httpError _ | .cancelling job, .raised _ _ =>
      some (.returned (terminal s!"higgsfield poll timed out (request_id={job.requestId})"
        .timeout none))
  | _, _ => none

/-- Where these answers, one after the other, lead the runner. -/
def follow : Stage → List Answer → Option Stage
  | stage, [] => some stage
  | stage, answer :: answers =>
      (advance python call stage answer).bind (fun next => follow next answers)

end Advance

end Runner
