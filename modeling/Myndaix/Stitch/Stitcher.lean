import Mathlib.Data.Rat.Defs
import Myndaix.Interaction.Traces
import Myndaix.Runner.Completion

/-! The stitcher: one clip after the other is generated, paid for and downloaded, the last frame of
a clip may start the next one, and the clips are put together in the end.
-/

namespace Stitch

open Interaction Ledger
open Runner (Generation HfCall Python truthy)

deriving instance DecidableEq for HfCall

/-- The class of an exception and its text. -/
structure Raised where
  name : String
  text : String
deriving DecidableEq, Repr

-- What a job asks for

/-- An entry of the shot list, as far as it is an object. -/
structure Shot where
  prompt : Option String := none
  imageUrl : Option String := none
  endImageUrl : Option String := none
  application : Option String := none
  motionId : Option String := none
  motionStrength : Option String := none
deriving DecidableEq, Repr

/-- The job with its context. The shot list is none if it is not a list, and an entry is none if it
is not an object.
-/
structure Job where
  id : String
  prompt : String
  timeoutS : Int
  worktreePath : Option String
  application : Option String
  imageUrl : Option String
  shotlist : Option (List (Option Shot))
  chain : Bool
deriving DecidableEq, Repr

/-- The adapter of the agent and the timeout of its profile; the knobs are read by `_hf_int`. -/
structure Spec where
  base : Option String
  secretRef : Option String
  application : Option String
  maxSegments : Option Int
  pollRetryMax : Int
  timeoutS : Int
deriving DecidableEq, Repr

/-- The machine that runs the job: its environment, and the value of a number's text. -/
structure Machine where
  httpxInstalled : Bool
  environ : String → Option String
  expanduser : String → String
  amount : String → ℚ

/-- The directory of the final videos. -/
def Machine.outDir (machine : Machine) : String :=
  machine.expanduser ((machine.environ "MDX_STITCH_OUT").getD "~/.myndaix/stitches")

def STITCH_MAX_SEGMENTS : Int := 12

structure Result extends Ledger.Result where
  cost : Option ℚ
deriving DecidableEq, Repr

/-- `cost or None`. -/
def named (cost : ℚ) : Option ℚ :=
  if cost = 0 then none else some cost

/-- `_err`. -/
def err (text : String) (cost : ℚ) (artifact : Option String) : Result where
  status := .error
  text := text
  errorClass := some .terminal
  artifactRef := artifact
  cost := named cost

/-- `os.path.join` of a directory and a file's name. -/
def join (directory name : String) : String :=
  if directory = "" ∨ directory.toList.getLast? = some '/' then directory ++ name
  else directory ++ "/" ++ name

/-- `f"{i:03d}"`. -/
def padded (i : Nat) : String :=
  String.ofList (List.replicate (3 - (toString i).length) '0') ++ toString i

def segPath (workdir : String) (i : Nat) : String :=
  join workdir ("seg_" ++ padded i ++ ".mp4")

def framePng (workdir : String) (i : Nat) : String :=
  join workdir ("frame_" ++ padded i ++ ".png")

-- What the stitcher asks and gets

inductive Query : Type where
  | monotonic
  | mkdtemp
  | makeWorkdir (workdir : String)
  | generate (call : HfCall)
  | rejectUnsafeUrl (url : String)
  | download (url segPath : String)
  | lastFrame (segPath framePng : String)
  | upload (framePng : String)
  | makeOutDir (outDir : String)
  | resolveEndCard (refClip : String)
  | concat (seq : List String) (finalPath : String)
deriving DecidableEq

/-- What `fu.concat` raises: its own error, or any other. -/
inductive ConcatError : Type where
  | ffmpeg (text : String)
  | other (raised : Raised)
deriving DecidableEq, Repr

/-- A generation is answered with all that came of it; reading the frame's file is part of its
upload, and the end card never raises.
-/
abbrev Answer (python : Python) : Query → Type
  | .monotonic => Int
  | .mkdtemp => Except Raised String
  | .makeWorkdir _ => Except Raised Unit
  | .generate call => Generation python call
  | .rejectUnsafeUrl _ => Except Raised (Option String)
  | .download _ _ => Except Raised Unit
  | .lastFrame _ _ => Except Raised Unit
  | .upload _ => Except Raised String
  | .makeOutDir _ => Except Raised Unit
  | .resolveEndCard _ => Option String
  | .concat _ _ => Except ConcatError Unit

abbrev Prog (python : Python) (Result : Type) : Type :=
  Program Query (Answer python) Result

abbrev ask {python : Python} (query : Query) : Prog python (Answer python query) :=
  Program.ask query

-- One shot

/-- What the loop over the shots carries. -/
structure Loop where
  clips : List String
  totalCost : ℚ
  failed : Option (Nat × String)
  prevLastUrl : Option String
deriving DecidableEq, Repr

def Loop.start : Loop :=
  ⟨[], 0, none, none⟩

def Loop.fail (loop : Loop) (i : Nat) (reason : String) : Loop :=
  { loop with failed := some (i, reason) }

def Loop.charge (loop : Loop) (cost : ℚ) : Loop :=
  { loop with totalCost := loop.totalCost + cost }

def Loop.keep (loop : Loop) (clip : String) (lastUrl : Option String) : Loop :=
  { loop with clips := loop.clips ++ [clip], prevLastUrl := lastUrl }

/-- What all shots of a run share. -/
structure Run where
  base : String
  key : String
  workdir : String
  deadline : Int
  retryMax : Int
  defaultApp : Option String
  job : Job

section Shots

variable {python : Python} (machine : Machine) (run : Run)

def startImg (i : Nat) (shot : Shot) (prevLastUrl : Option String) : Option String :=
  (truthy shot.imageUrl).or
    ((if run.job.chain ∧ 0 < i then truthy prevLastUrl else none).or (truthy run.job.imageUrl))

/-- The arguments of a shot's generation. -/
def hfCall (shot : Shot) (startImg app : String) : HfCall where
  base := run.base
  application := app
  key := run.key
  prompt := (truthy shot.prompt).getD run.job.prompt
  imageUrl := startImg
  deadline := run.deadline
  motionId := shot.motionId
  motionStrength := shot.motionStrength
  endImageUrl := shot.endImageUrl
  retryMax := run.retryMax

/-- The last frame of a clip, as the URL of its upload; without one on any failure. -/
def chainFrame (i : Nat) : Prog python (Option String) := do
  match ← ask (.lastFrame (segPath run.workdir i) (framePng run.workdir i)) with
  | .error _ => return none
  | .ok _ =>
      match ← ask (.upload (framePng run.workdir i)) with
      | .error _ => return none
      | .ok lastUrl => return some lastUrl

/-- The next shot is there and brings no image of its own. -/
def wantsFrame : List Shot → Bool
  | [] => false
  | next :: _ => truthy next.imageUrl = none

/-- A shot whose clip was paid for. An exception of the URL guard is not caught. -/
def keepClip (i : Nat) (later : List Shot) (loop : Loop) (artifactRef : String)
    : Prog python (Except String Loop) := do
  match ← ask (.rejectUnsafeUrl artifactRef) with
  | .error raised => return .error raised.text
  | .ok (some _) =>
      return .ok (loop.fail i s!"artifact_ref rejected (SSRF): {artifactRef}")
  | .ok none =>
      match ← ask (.download artifactRef (segPath run.workdir i)) with
      | .error raised => return .ok (loop.fail i s!"clip download failed: {raised.text}")
      | .ok _ =>
          let lastUrl ←
            if run.job.chain && wantsFrame later then chainFrame run i else pure none
          return .ok (loop.keep (segPath run.workdir i) lastUrl)

/-- One turn of the loop. -/
def stitchShot (i : Nat) (shot : Shot) (later : List Shot) (loop : Loop)
    : Prog python (Except String Loop) := do
  let now ← ask .monotonic
  if run.deadline ≤ now then
    return .ok (loop.fail i s!"job deadline ({run.job.timeoutS}s) exceeded before shot {i}")
  else
    match startImg run i shot loop.prevLastUrl with
    | none => return .ok (loop.fail i "no image_url (and no chained/base seed)")
    | some startImg =>
        match (truthy shot.application).or run.defaultApp with
        | none => return .ok (loop.fail i "no 'application' (model path) for shot")
        | some app =>
            let generation ← ask (.generate (hfCall run shot startImg app))
            match generation.ending with
            | .raised text => return .error text
            | .returned res =>
                if res.status ≠ .ok then return .ok (loop.fail i res.text)
                else
                  match truthy res.artifactRef with
                  | none => return .ok (loop.fail i res.text)
                  | some artifactRef =>
                      let cost := (res.cost.map machine.amount).getD 0
                      keepClip run i later (loop.charge cost) artifactRef

/-- The loop over the shots, which a failed shot ends. -/
def stitchShots : Nat → List Shot → Loop → Prog python (Except String Loop)
  | _, [], loop => .done (.ok loop)
  | i, shot :: later, loop => do
      match ← stitchShot machine run i shot later loop with
      | .error raised => return .error raised
      | .ok loop =>
          match loop.failed with
          | some _ => return .ok loop
          | none => stitchShots (i + 1) later loop

end Shots

-- The whole job

section Invoke

variable {python : Python} (machine : Machine)

/-- Where and why the loop failed, as the errors print it. -/
def Loop.failure (loop : Loop) : String × String :=
  match loop.failed with
  | none => ("None", "None")
  | some (failedAt, reason) => (toString failedAt, reason)

/-- What follows the loop: the clips, if there are any, are put together. -/
def assemble (run : Run) (shots : List Shot) (loop : Loop) : Prog python Result := do
  let (failedAt, failReason) := loop.failure
  match loop.clips with
  | [] =>
      return err s!"stitch produced no clips (failed at shot {failedAt}: {failReason})"
        loop.totalCost none
  | refClip :: _ =>
      let finalPath := join machine.outDir s!"stitch_{run.job.id}.mp4"
      match ← ask (.makeOutDir machine.outDir) with
      | .error raised =>
          return err s!"stitch assembly failed: {raised.name}: {raised.text}" loop.totalCost none
      | .ok _ =>
          let endCard ← ask (.resolveEndCard refClip)
          match ← ask (.concat (loop.clips ++ (truthy endCard).toList) finalPath) with
          | .error (.ffmpeg text) =>
              return err s!"stitch assembly (ffmpeg) failed: {text}" loop.totalCost none
          | .error (.other raised) =>
              return err s!"stitch assembly failed: {raised.name}: {raised.text}" loop.totalCost
                none
          | .ok _ =>
              match loop.failed with
              | some _ =>
                  let text :=
                    s!"stitch PARTIAL {loop.clips.length}/{shots.length} shots "
                      ++ s!"(failed at {failedAt}: {failReason})"
                  return err text loop.totalCost (some finalPath)
              | none =>
                  return {
                    status := .ok,
                    text := finalPath,
                    errorClass := none,
                    artifactRef := some finalPath,
                    cost := named loop.totalCost
                  }

/-- `job.worktree_path or tempfile.mkdtemp(...)`, made if it is not there. -/
def makeWorkdir (worktreePath : Option String) : Prog python (Except String String) := do
  match truthy worktreePath with
  | some workdir =>
      match ← ask (.makeWorkdir workdir) with
      | .error raised => return .error raised.text
      | .ok _ => return .ok workdir
  | none =>
      match ← ask .mkdtemp with
      | .error raised => return .error raised.text
      | .ok workdir =>
          match ← ask (.makeWorkdir workdir) with
          | .error raised => return .error raised.text
          | .ok _ => return .ok workdir

/-- The shots, and what is put together of them. -/
def render (run : Run) (shots : List Shot) : Prog python (Except String Result) := do
  match ← stitchShots machine run 0 shots .start with
  | .error raised => return .error raised
  | .ok loop => return .ok (← assemble machine run shots loop)

/-- What a job comes to that passes the checks. -/
structure Plan where
  base : String
  key : String
  shots : List Shot
deriving DecidableEq, Repr

/-- The checks before anything is spent, or the text of the one that fails. -/
def plan (spec : Spec) (job : Job) : Except String Plan :=
  match truthy spec.base with
  | none => .error "stitcher adapter missing 'base'"
  | some base =>
      match truthy ((truthy spec.secretRef).bind machine.environ) with
      | none =>
          let unset := (truthy spec.secretRef).getD "<secret_ref unset>"
          .error s!"missing API key in env: {unset}"
      | some key =>
          match job.shotlist with
          | none | some [] => .error "stitcher job missing non-empty 'shotlist' in context"
          | some entries =>
              match entries.mapM id with
              | none => .error "stitcher shotlist entries must be objects"
              | some shots =>
                  let maxSeg := spec.maxSegments.getD STITCH_MAX_SEGMENTS
                  if maxSeg < shots.length then
                    .error s!"shotlist has {shots.length} shots > max_segments {maxSeg}"
                  else .ok ⟨base, key, shots⟩

/-- The part that may spend. -/
def stitch (spec : Spec) (job : Job) (started : Int) (plan : Plan)
    : Prog python (Except String Result) := do
  match ← makeWorkdir job.worktreePath with
  | .error raised => return .error raised
  | .ok workdir =>
      render machine
        {
          base := plan.base,
          key := plan.key,
          workdir := workdir,
          deadline := started + spec.timeoutS,
          retryMax := spec.pollRetryMax,
          defaultApp := (truthy job.application).or (truthy spec.application),
          job := job
        }
        plan.shots

def invokeStitch (spec : Spec) (job : Job) : Prog python (Except String Result) :=
  if machine.httpxInstalled then do
    let started ← ask .monotonic
    match plan machine spec job with
    | .error text => return .ok (err text 0 none)
    | .ok plan => stitch machine spec job started plan
  else .done (.ok (err "stitcher needs httpx (pip install httpx)" 0 none))

end Invoke

end Stitch
