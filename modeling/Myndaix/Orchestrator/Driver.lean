import Myndaix.Interaction.Traces
import Myndaix.Ledger.Schema
import Myndaix.Numbers.Rounding

/-! The orchestrator's driver: a brief becomes a shot and a route, a human approves the plan, and
then the supplier renders plates, each of which is charged, until the critic lets one pass.
-/

namespace Orchestrator

open Interaction Ledger Rounding

/-- What an `except Exception` sees: the class of the exception and its text. -/
structure Raised where
  name : String
  text : String
deriving DecidableEq, Repr

-- The free stages

inductive RenderType where
  | generic
  | persona
deriving DecidableEq, Repr

/-- What `build_prompt` hands on: the prompt and the brand's hexes. -/
structure Shot where
  prompt : String
  hexes : List String
deriving DecidableEq, Repr

def motionCatalog : List (String × String) := [
  ("Dolly In", "81ca2cd2-05db-4222-9ba0-a32e5185adfb"),
  ("Static", "fa3ddb7c-53ee-4383-aa17-97ae65f180e5"),
  ("Push To Glass", "30a02896-cdda-469d-9ed9-52cbba1c04a8"),
  ("Crane Up", "68af9add-43ea-4261-a706-16b640fdcff9"),
  ("Zoom In", "fbcbec5b-30f8-4b17-ba6e-8e8d5b265562"),
  ("360 Orbit", "ea035f68-b350-40f1-b7f4-7dff999fdd67")
]

def heroMotion : String := "Dolly In"

def fillerMotion : String := "Static"

/-- `COST_EST`, in credits. -/
def costEst : List (String × ℤ) := [("hero", 40), ("filler", 6)]

def costEstFiller : ℤ := 6

def maxRetriesCap : ℤ := 2

structure Routed where
  motionName : String
  motionId : String
  motionStrength : ℚ
  costEst : ℤ
  prompt : String
deriving DecidableEq, Repr

/-- `value or default` of an optional text. -/
def orElse (value : Option String) (default : String) : String :=
  match value with
  | none => default
  | some text => if text = "" then default else text

inductive RouteError where
  | badRole (role : String)
  | unknownMotion (name : String)
deriving DecidableEq, Repr

def route (shot : Shot) (role : String) (motion : Option String) (motionStrength : Option ℚ)
    : Except RouteError Routed :=
  if role ∉ ["hero", "filler"] then .error (.badRole role)
  else
    let name := orElse motion (if role = "hero" then heroMotion else fillerMotion)
    match motionCatalog.lookup name with
    | none => .error (.unknownMotion name)
    | some motionId =>
        .ok {
          motionName := name
          motionId
          motionStrength := motionStrength.getD (1 / 2)
          costEst := (costEst.lookup role).getD costEstFiller
          prompt := shot.prompt
        }

def estimateCost (routed : Routed) : ℚ :=
  routed.costEst

-- What a run is given, asks and returns

structure Request where
  brief : String
  brand : String := "myndaix"
  imageUrl : String
  shotId : String := "shot-01"
  role : String := "hero"
  renderType : RenderType := .generic
  refImage : Option String := none
  motion : Option String := none
  motionStrength : Option ℚ := none
  endImageUrl : Option String := none
  repoId : Option String := none
  maxRetries : ℤ := 2
  /-- A `persona_judge` is given. -/
  personaJudge : Bool := false
deriving DecidableEq, Repr

structure Plan where
  brief : String
  brand : String
  shotId : String
  imageUrl : String
  motion : String
  motionId : String
  motionStrength : ℚ
  estimatedCost : ℚ
  maxAttempts : ℕ
  maxEstimatedCost : ℚ
deriving DecidableEq, Repr

/-- The supplier's `ctx`. -/
structure Context where
  imageUrl : String
  prompt : String
  motionId : String
  motionStrength : ℚ
  costEst : ℚ
  repoId : Option String
  endImageUrl : Option String
deriving DecidableEq, Repr

/-- What a supplier returns; each key may be missing. -/
structure Plate where
  artifactRef : Option String
  cost : Option ℚ
  jobId : Option String := none
deriving DecidableEq, Repr

inductive CriticStatus where
  | pass
  | warn
  | fail
deriving DecidableEq, Repr

/-- A critic's verdict, with the `motion_strength_delta` of its hint if there is one. -/
structure Verdict where
  status : CriticStatus
  metric : List (String × String) := []
  reasons : List String := []
  motionStrengthDelta : Option ℚ := none
deriving DecidableEq, Repr

/-- One entry of `attempts`; `critic` is `none` where the source writes "error". -/
structure Attempt where
  motionStrength : ℚ
  cost : ℚ
  critic : Option CriticStatus
  reasons : List String
  artifactRef : Option String := none
  jobId : Option String := none
deriving DecidableEq, Repr

structure Delivery where
  plateUrl : String
  shotId : String
  renderType : RenderType
  hexes : List String
  cameraPreset : String
  motionId : String
  motionStrength : ℚ
  brand : String
  seedStill : String
  cost : ℚ
  criticStatus : CriticStatus
  metric : List (String × String)
  reasons : List String
  prompt : String
  retries : ℕ
deriving DecidableEq, Repr

/-- The manifests, one constructor for each exit of `run`. -/
inductive Manifest where
  | referenceUnavailable (error : Raised) (brief brand : String) (renderType : RenderType)
  | notApproved (plan : Plan)
  | supplierError (error : Raised) (attempts : List Attempt) (plan : Plan)
  | qcFailed (plateUrl : Option String) (cost : ℚ) (error : Raised) (attempts : List Attempt)
    (plan : Plan)
  | criticFail (attempts : List Attempt) (plan : Plan)
  | ok (delivery : Delivery)
deriving DecidableEq, Repr

/-- The manifest's `cost`, where it has one. -/
def Manifest.cost : Manifest → Option ℚ
  | .qcFailed _ cost _ _ _ => some cost
  | .ok delivery => some delivery.cost
  | .referenceUnavailable .. | .notApproved .. | .supplierError .. | .criticFail .. => none

/-- How a plate is checked: a persona against its reference, any other by the brand's hexes. -/
inductive Check where
  | persona
  | generic (hexes : List String)
deriving DecidableEq, Repr

inductive Query where
  | buildPrompt (brief brand : String) (renderType : RenderType)
  | embedRef (refImage : Option String) (imageUrl : String)
  | approve (plan : Plan)
  | supplier (context : Context) (deadline : ℚ)
  | judge (check : Check) (artifactRef : String)
deriving DecidableEq, Repr

abbrev Answer : Query → Type
  | .buildPrompt .. => Except Raised Shot
  | .embedRef .. => Except Raised Unit
  | .approve .. => Bool
  | .supplier .. => Except Raised Plate
  | .judge .. => Except Raised Verdict

/-- A run of the driver; what it does not catch itself is an error. -/
abbrev Run (Result : Type) : Type :=
  Program Query Answer Result

abbrev ask (query : Query) : Run (Answer query) :=
  Program.ask query

-- The run

/-- `sup.get("cost") or cost_est`. -/
def Plate.paid (plate : Plate) (estimate : ℚ) : ℚ :=
  match plate.cost with
  | none => estimate
  | some cost => if cost = 0 then estimate else cost

/-- `sup.get("cost", 0.0)`. -/
def Plate.named (plate : Plate) : ℚ :=
  plate.cost.getD 0

/-- The retry's one variable: less motion, and not below none. -/
def Verdict.adjust (verdict : Verdict) (motionStrength : ℚ) : ℚ :=
  roundTo 3 (max 0 (motionStrength + verdict.motionStrengthDelta.getD (-15 / 100)))

/-- The `timeout_s` of the registry's "higgsfield" profile. -/
def profileTimeout : ℚ := 600

def deadline : ℚ :=
  max 600 profileTimeout

section Attempts

variable (request : Request) (shot : Shot) (routed : Routed) (plan : Plan)

def context (motionStrength : ℚ) : Context where
  imageUrl := request.imageUrl
  prompt := routed.prompt
  motionId := routed.motionId
  motionStrength
  costEst := estimateCost routed
  repoId := request.repoId
  endImageUrl := request.endImageUrl.filter (· ≠ "")

/-- The stage-4 check of a plate. A plate without its reference is a `KeyError` of this stage. -/
def judge (plate : Plate) : Run (Except Raised Verdict) :=
  match plate.artifactRef with
  | none => pure (.error ⟨"KeyError", "'artifact_ref'"⟩)
  | some artifactRef =>
      match request.renderType with
      | .persona => ask (.judge .persona artifactRef)
      | .generic => ask (.judge (.generic shot.hexes) artifactRef)

def supplierAttempt (motionStrength : ℚ) (error : Raised) : Attempt where
  motionStrength
  cost := 0
  critic := none
  reasons := [s!"supplier: {error.name}: {error.text}"]

def qcAttempt (motionStrength : ℚ) (plate : Plate) (error : Raised) : Attempt where
  motionStrength
  cost := plate.paid (estimateCost routed)
  critic := none
  reasons := [s!"stage-4 QC: {error.name}: {error.text}"]
  artifactRef := plate.artifactRef
  jobId := plate.jobId

def judgedAttempt (motionStrength : ℚ) (plate : Plate) (verdict : Verdict) : Attempt where
  motionStrength
  cost := plate.named
  critic := some verdict.status
  reasons := verdict.reasons

/-- The manifest of a plate that passed, at the sum of what the attempts cost. -/
def delivered (motionStrength : ℚ) (attempts : List Attempt) (plate : Plate) (verdict : Verdict)
    : Delivery where
  plateUrl := plate.artifactRef.getD ""
  shotId := request.shotId
  renderType := request.renderType
  hexes := shot.hexes
  cameraPreset := routed.motionName
  motionId := routed.motionId
  motionStrength
  brand := request.brand
  seedStill := request.imageUrl
  cost := roundTo 4 (attempts.map Attempt.cost).sum
  criticStatus := verdict.status
  metric := verdict.metric
  reasons := verdict.reasons
  prompt := routed.prompt
  retries := attempts.length - 1

/-- The loop of stages 3 and 4, with the attempts that are left and those that were made. -/
def attemptLoop : ℕ → ℚ → List Attempt → Run Manifest
  | 0, _, attempts => pure (.criticFail attempts plan)
  | left + 1, motionStrength, attempts => do
      match ← ask (.supplier (context request routed motionStrength) deadline) with
      | .error error =>
          pure (.supplierError error (attempts ++ [supplierAttempt motionStrength error]) plan)
      | .ok plate =>
          match ← judge request shot plate with
          | .error error =>
              pure (.qcFailed plate.artifactRef (roundTo 4 (plate.paid (estimateCost routed))) error
                (attempts ++ [qcAttempt routed motionStrength plate error]) plan)
          | .ok verdict =>
              let attempts := attempts ++ [judgedAttempt motionStrength plate verdict]
              if verdict.status ≠ .fail then
                pure (.ok (delivered request shot routed motionStrength attempts plate verdict))
              else attemptLoop left (verdict.adjust motionStrength) attempts

end Attempts

/-- `max_attempts`: the first attempt and the retries, of which there are at most two. -/
def Request.maxAttempts (request : Request) : ℕ :=
  (max 0 (min maxRetriesCap request.maxRetries)).toNat + 1

def planOf (request : Request) (routed : Routed) : Plan where
  brief := request.brief
  brand := request.brand
  shotId := request.shotId
  imageUrl := request.imageUrl
  motion := routed.motionName
  motionId := routed.motionId
  motionStrength := routed.motionStrength
  estimatedCost := estimateCost routed
  maxAttempts := request.maxAttempts
  maxEstimatedCost := roundTo 4 (estimateCost routed * request.maxAttempts)

/-- The human cost gate and what follows it. -/
def gate (request : Request) (shot : Shot) (routed : Routed) : Run Manifest := do
  let plan := planOf request routed
  if ← ask (.approve plan) then
    attemptLoop request shot routed plan plan.maxAttempts routed.motionStrength []
  else pure (.notApproved plan)

/-- What leaves `run` as an exception. -/
inductive Uncaught where
  | prompt (error : Raised)
  | route (error : RouteError)
deriving DecidableEq, Repr

def run (request : Request) : Run (Except Uncaught Manifest) := do
  match ← ask (.buildPrompt request.brief request.brand request.renderType) with
  | .error error => pure (.error (.prompt error))
  | .ok shot =>
      match route shot request.role request.motion request.motionStrength with
      | .error error => pure (.error (.route error))
      | .ok routed =>
          -- Only a persona without a judge of its own needs the reference's embedding.
          if request.renderType = .persona ∧ !request.personaJudge then
            match ← ask (.embedRef request.refImage request.imageUrl) with
            | .error error =>
                pure (.ok (.referenceUnavailable error request.brief request.brand
                  request.renderType))
            | .ok _ => .ok <$> gate request shot routed
          else .ok <$> gate request shot routed

end Orchestrator
