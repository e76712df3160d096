import Mathlib.Algebra.Ring.Rat
import Myndaix.Stitch.Stitcher

/-! What the stitcher may ask, and its books. Each shot is generated at most once, in order and only
after all earlier clips were downloaded, and what is completed is added up turn by turn.
-/

namespace Stitch

open Interaction
open Interaction.Program (Ensures recording)
open Runner (Generation HfCall Json Python artifactUrl statusCost submissions truthy)

abbrev Event (python : Python) : Type :=
  Interaction.Event Query (Answer python)

abbrev Trace (python : Python) : Type :=
  List (Event python)

-- What a trace tells

section Traces

variable {python : Python}

def isGeneration : Event python → Bool
  | ⟨.generate _, _⟩ => true
  | _ => false

/-- The status with which a generation was completed. -/
def completedWith : Event python → Option (List (String × Json))
  | ⟨.generate _, generation⟩ => generation.completion
  | _ => none

/-- The file of a clip that was downloaded. -/
def downloadedTo : Event python → Option String
  | ⟨.download _ segPath, .ok _⟩ => some segPath
  | _ => none

/-- The answer is an exception that the stitcher does not catch. -/
def escapes : Event python → Bool
  | ⟨.mkdtemp, .error _⟩ | ⟨.makeWorkdir _, .error _⟩ | ⟨.rejectUnsafeUrl _, .error _⟩ => true
  | ⟨.generate _, generation⟩ =>
      match generation.ending with
      | .raised _ => true
      | .returned _ => false
  | _ => false

/-- The frame that the next shot can start from: a new generation forgets it. -/
def chainedAfter (kept : Option String) : Event python → Option String
  | ⟨.generate _, _⟩ => none
  | ⟨.upload _, .ok url⟩ => truthy (some url)
  | _ => kept

/-- How many generations were asked for. -/
def generated (trace : Trace python) : Nat :=
  trace.countP isGeneration

def completions (trace : Trace python) : List (List (String × Json)) :=
  trace.filterMap completedWith

def downloaded (trace : Trace python) : List String :=
  trace.filterMap downloadedTo

/-- The URL of the last frame of the shot generated last, if it was uploaded. -/
def chained (trace : Trace python) : Option String :=
  trace.foldl chainedAfter none

variable (machine : Machine)

def reportedCost (python : Python) (data : List (String × Json)) : ℚ :=
  ((statusCost python data).map machine.amount).getD 0

/-- The sum of the costs that the completed generations report. -/
def spent (trace : Trace python) : ℚ :=
  ((completions trace).map (reportedCost machine python)).sum

/-- The completed generations without a URL. -/
def urlless (trace : Trace python) : List (List (String × Json)) :=
  (completions trace).filter (fun data => artifactUrl data = none)

-- What the stitcher may do

/-- The image a shot starts from: its own, or the frame of the shot before, or the job's. -/
def StartsFrom (job : Job) (shot : Shot) (before : Trace python) (image : String) : Prop :=
  (truthy shot.imageUrl).or ((chained before).or (truthy job.imageUrl)) = some image

/-- A generation is one of the shot list's, which is not too long, and comes when each shot before
has been generated and downloaded.
-/
structure MayGenerate (spec : Spec) (run : Run) (before : Trace python) (call : HfCall)
    (entries : List (Option Shot)) (shot : Shot) (image app : String) : Prop where
  listed : run.job.shotlist = some entries
  bounded : (entries.length : Int) ≤ spec.maxSegments.getD STITCH_MAX_SEGMENTS
  next : entries[generated before]? = some (some shot)
  downloaded : (downloaded before).length = generated before
  starts : StartsFrom run.job shot before image
  call_eq : call = hfCall run shot image app

/-- What may be asked after some history. -/
def Permitted (spec : Spec) (run : Run) (before : Trace python) : Query → Prop
  | .generate call =>
      ∃ entries shot image app, MayGenerate spec run before call entries shot image app
  | .download url path =>
      path = segPath run.workdir (downloaded before).length
      ∧ (downloaded before).length + 1 = generated before
      ∧ ∃ data, (completions before).getLast? = some data ∧ artifactUrl data = some url
  | .lastFrame clip _ =>
      (downloaded before).length = generated before ∧ (downloaded before).getLast? = some clip
  | .upload frame =>
      ∃ earlier clip, before = earlier ++ [⟨.lastFrame clip frame, .ok ()⟩]
  | .concat seq _ =>
      ∃ earlier refClip endCard,
        before = earlier ++ [⟨.resolveEndCard refClip, endCard⟩]
        ∧ seq = downloaded before ++ (truthy endCard).toList
  | _ => True

end Traces

-- One more event

section Append

variable {python : Python} (history : Trace python) (event : Event python) {machine : Machine}

/-- The event buys nothing and breaks nothing. -/
structure Silent (event : Event python) : Prop where
  generation : isGeneration event = false
  completed : completedWith event = none
  downloaded : downloadedTo event = none
  caught : escapes event = false

/-- One event more, and what it adds to each count. -/
theorem generated_append
    : generated (history ++ [event]) = generated history + (isGeneration event).toNat := by
  unfold generated
  rw [List.countP_append, List.countP_singleton]
  cases isGeneration event <;> rfl

theorem completions_append
    : completions (history ++ [event]) = completions history ++ (completedWith event).toList := by
  unfold completions
  rw [List.filterMap_append]
  cases some : completedWith event <;> simp [some]

theorem downloaded_append
    : downloaded (history ++ [event]) = downloaded history ++ (downloadedTo event).toList := by
  unfold downloaded
  rw [List.filterMap_append]
  cases some : downloadedTo event <;> simp [some]

theorem chained_append
    : chained (history ++ [event]) = chainedAfter (chained history) event := by
  unfold chained
  rw [List.foldl_append, List.foldl_cons, List.foldl_nil]

theorem escapes_append (quiet : ∀ event ∈ history, escapes event = false)
    (caught : escapes event = false)
    : ∀ other ∈ history ++ [event], escapes other = false := by
  intro other mem
  rcases List.mem_append.mp mem with mem | mem
  · exact quiet other mem
  · rwa [List.mem_singleton.mp mem]

variable {history event}

/-- A silent event generates nothing. -/
theorem Silent.generated (silent : Silent event)
    : generated (history ++ [event]) = generated history := by
  rw [generated_append, silent.generation]
  rfl

theorem completions_idle (idle : completedWith event = none)
    : completions (history ++ [event]) = completions history := by
  rw [completions_append, idle]
  exact List.append_nil _

/-- And downloads nothing. -/
theorem Silent.downloads (silent : Silent event)
    : Stitch.downloaded (history ++ [event]) = Stitch.downloaded history := by
  rw [downloaded_append, silent.downloaded]
  exact List.append_nil _

end Append

-- The books

variable {spec : Spec} {artifactRef : String}

section Books

variable {python : Python} (machine : Machine) (run : Run)

/-- What holds between two turns of the loop: all shots so far were generated, completed with a URL,
added up and downloaded.
-/
structure Going (i : Nat) (loop : Loop) (history : Trace python) : Prop where
  generated : generated history = i
  count : loop.clips.length = i
  clips : downloaded history = loop.clips
  quiet : ∀ event ∈ history, escapes event = false
  cost : loop.totalCost = spent machine history
  found : urlless history = []
  chained : truthy loop.prevLastUrl = chained history
  unchained : run.job.chain = false ∨ i = 0 → loop.prevLastUrl = none
  unfailed : loop.failed = none

/-- What holds when the loop has ended: at most the cost of one generation without a URL is not
added up.
-/
structure Ended (loop : Loop) (history : Trace python) : Prop where
  clips : downloaded history = loop.clips
  quiet : ∀ event ∈ history, escapes event = false
  cost
    : loop.totalCost + ((urlless history).map (reportedCost machine python)).sum
      = spent machine history
  lone : (urlless history).length ≤ 1

/-- The last event was an exception that was not caught. -/
def Escaped (history : Trace python) : Prop :=
  ∃ before event, history = before ++ [event] ∧ escapes event = true

variable {machine run} {i : Nat} {loop : Loop} {history : Trace python} {event : Event python}

theorem spent_idle (idle : completedWith event = none)
    : spent machine (history ++ [event]) = spent machine history := by
  unfold spent
  rw [completions_idle idle]

theorem urlless_idle (idle : completedWith event = none)
    : urlless (history ++ [event]) = urlless history := by
  unfold urlless
  rw [completions_idle idle]

/-- It leaves the loop where it is. -/
theorem Going.silent (going : Going machine run i loop history) (silent : Silent event)
    (kept : chainedAfter (Stitch.chained history) event = Stitch.chained history)
    : Going machine run i loop (history ++ [event]) where
  generated := silent.generated.trans going.generated
  count := going.count
  clips := silent.downloads.trans going.clips
  quiet := escapes_append history event going.quiet silent.caught
  cost := going.cost.trans (spent_idle silent.completed).symm
  found := (urlless_idle silent.completed).trans going.found
  chained := by rw [chained_append, kept, going.chained]
  unchained := going.unchained
  unfailed := going.unfailed

/-- The loop may end at any shot. -/
theorem Going.ended (going : Going machine run i loop history) : Ended machine loop history where
  clips := going.clips
  quiet := going.quiet
  cost := by rw [going.found, List.map_nil, List.sum_nil, add_zero, going.cost]
  lone := by rw [going.found]; exact Nat.zero_le 1

/-- The end stays one with a failure to report. -/
theorem Ended.fail (ended : Ended machine loop history) (i : Nat) (reason : String)
    : Ended machine (loop.fail i reason) history :=
  ⟨ended.clips, ended.quiet, ended.cost, ended.lone⟩

/-- Silent events may follow. -/
theorem Ended.silent (ended : Ended machine loop history) (silent : Silent event)
    : Ended machine loop (history ++ [event]) where
  clips := silent.downloads.trans ended.clips
  quiet := escapes_append history event ended.quiet silent.caught
  cost := by rw [urlless_idle silent.completed, spent_idle silent.completed, ended.cost]
  lone := by rw [urlless_idle silent.completed]; exact ended.lone

/-- A turn's end: an exception, a failed shot or the next turn. -/
def Turned (machine : Machine) (run : Run) (i : Nat) (result : Except String Loop)
    (history : Trace python)
    : Prop :=
  match result with
  | .error _ => Escaped history
  | .ok loop =>
      match loop.failed with
      | some _ => Ended machine loop history
      | none => Going machine run (i + 1) loop history

-- One turn

/-- What holds when a shot is paid for and its clip is not yet downloaded. -/
structure Paid (machine : Machine) (i : Nat) (loop : Loop) (artifactRef : String)
    (history : Trace python) : Prop where
  generated : generated history = i + 1
  count : loop.clips.length = i
  clips : downloaded history = loop.clips
  quiet : ∀ event ∈ history, escapes event = false
  cost : loop.totalCost = spent machine history
  found : urlless history = []
  last : ∃ data, (completions history).getLast? = some data ∧ artifactUrl data = some artifactRef
  chained : chained history = none
  unfailed : loop.failed = none

/-- They leave what is paid for as it is. -/
theorem Paid.silent (paid : Paid machine i loop artifactRef history) (silent : Silent event)
    (kept : chainedAfter (Stitch.chained history) event = Stitch.chained history)
    : Paid machine i loop artifactRef (history ++ [event]) where
  generated := silent.generated.trans paid.generated
  count := paid.count
  clips := silent.downloads.trans paid.clips
  quiet := escapes_append history event paid.quiet silent.caught
  cost := paid.cost.trans (spent_idle silent.completed).symm
  found := (urlless_idle silent.completed).trans paid.found
  last := by rw [completions_idle silent.completed]; exact paid.last
  chained := by rw [chained_append, kept, paid.chained]
  unfailed := paid.unfailed

/-- The loop may end with a shot that is paid for. -/
theorem Paid.ended (paid : Paid machine i loop artifactRef history)
    : Ended machine loop history where
  clips := paid.clips
  quiet := paid.quiet
  cost := by rw [paid.found, List.map_nil, List.sum_nil, add_zero, paid.cost]
  lone := by rw [paid.found]; exact Nat.zero_le 1

/-- The clip is downloaded. -/
theorem Paid.download (paid : Paid machine i loop artifactRef history)
    : Going machine run (i + 1) (loop.keep (segPath run.workdir i) none)
        (history ++ [⟨.download artifactRef (segPath run.workdir i), .ok ()⟩]) where
  generated := by rw [generated_append, paid.generated]; rfl
  count := by simp [Loop.keep, paid.count]
  clips := by rw [downloaded_append, paid.clips]; rfl
  quiet := escapes_append history _ paid.quiet rfl
  cost := paid.cost.trans (spent_idle rfl).symm
  found := (urlless_idle rfl).trans paid.found
  chained := by
    rw [chained_append, paid.chained]
    rfl
  unchained := fun _ => rfl
  unfailed := paid.unfailed

/-- The frame that a clip is chained with takes its place. -/
theorem Going.chain {clip : String} {lastUrl : Option String} (chains : run.job.chain = true)
    (going : Going machine run (i + 1) (loop.keep clip none) history) (silent : Silent event)
    (kept : chainedAfter (Stitch.chained history) event = truthy lastUrl)
    : Going machine run (i + 1) (loop.keep clip lastUrl) (history ++ [event]) where
  generated := silent.generated.trans going.generated
  count := going.count
  clips := silent.downloads.trans going.clips
  quiet := escapes_append history event going.quiet silent.caught
  cost := going.cost.trans (spent_idle silent.completed).symm
  found := (urlless_idle silent.completed).trans going.found
  chained := by rw [chained_append, kept]; rfl
  unchained := by
    intro either
    rcases either with unchained | first
    · rw [chains] at unchained
      cases unchained
    · cases first
  unfailed := going.unfailed

/-- The last frame goes into the next shot. -/
theorem chainFrame_chains (chains : run.job.chain = true)
    (going : Going machine run (i + 1) (loop.keep (segPath run.workdir i) none) history)
    : (chainFrame run i : Prog python (Option String)).Ensures (recording (Permitted spec run))
        (fun lastUrl after =>
          Going machine run (i + 1) (loop.keep (segPath run.workdir i) lastUrl) after)
        history := by
  have unchained : Stitch.chained history = none := by
    rw [← going.chained]
    rfl
  have counted : (downloaded history).length = generated history := by
    rw [going.clips, going.count, going.generated]
  have clip : (downloaded history).getLast? = some (segPath run.workdir i) := by
    rw [going.clips]
    exact List.getLast?_concat
  refine .records ⟨counted, clip⟩ fun answer => ?_
  cases answer with
  | error raised =>
      refine .recorded (going.silent ⟨rfl, rfl, rfl, rfl⟩ rfl)
  | ok framed =>
      have shown
          : Going machine run (i + 1) (loop.keep (segPath run.workdir i) none)
              (history
                ++ [⟨.lastFrame (segPath run.workdir i) (framePng run.workdir i), .ok framed⟩]) :=
        going.silent ⟨rfl, rfl, rfl, rfl⟩ rfl
      refine .records ⟨history, _, rfl⟩ fun answer => ?_
      cases answer with
      | error raised =>
          refine .recorded (shown.silent ⟨rfl, rfl, rfl, rfl⟩ rfl)
      | ok lastUrl =>
          exact .recorded (shown.chain chains ⟨rfl, rfl, rfl, rfl⟩ rfl)

/-- A clip that was paid for, by how the URL guard and the download end. -/
theorem keepClip_turns {later : List Shot} (paid : Paid machine i loop artifactRef history)
    : (keepClip run i later loop artifactRef : Prog python (Except String Loop)).Ensures
        (recording (Permitted spec run)) (fun result after => Turned machine run i result after)
        history := by
  refine .records trivial fun answer => ?_
  match answer with
  | .error raised => exact .recorded ⟨history, _, rfl, rfl⟩
  | .ok (some reason) =>
      exact .recorded ((paid.silent ⟨rfl, rfl, rfl, rfl⟩ rfl).ended.fail _ _)
  | .ok none =>
      have guarded
          : Paid machine i loop artifactRef
              (history ++ [⟨.rejectUnsafeUrl artifactRef, .ok none⟩]) :=
        paid.silent ⟨rfl, rfl, rfl, rfl⟩ rfl
      have next := guarded.count
      rw [← guarded.clips] at next
      refine .records ⟨by rw [next], by rw [next, guarded.generated], guarded.last⟩ fun answer => ?_
      cases answer with
      | error raised => exact .recorded ((guarded.silent ⟨rfl, rfl, rfl, rfl⟩ rfl).ended.fail _ _)
      | ok done =>
          have going
              : Going machine run (i + 1) (loop.keep (segPath run.workdir i) none)
                  (history ++ [⟨.rejectUnsafeUrl artifactRef, .ok none⟩]
                    ++ [⟨.download artifactRef (segPath run.workdir i), .ok done⟩]) :=
            guarded.download
          have turned {lastUrl : Option String} {after : Trace python}
              (going : Going machine run (i + 1) (loop.keep (segPath run.workdir i) lastUrl) after)
              : Turned machine run i (.ok (loop.keep (segPath run.workdir i) lastUrl)) after := by
            unfold Turned
            simp only [going.unfailed]
            exact going
          dsimp only
          by_cases chains : (run.job.chain && wantsFrame later) = true
          · rw [if_pos chains]
            have chained := (Bool.and_eq_true_iff.mp chains).1
            refine Ensures.bind (chainFrame_chains chained going) fun lastUrl after kept => ?_
            exact .recorded (turned kept)
          · rw [if_neg chains]
            exact .recorded (turned going)

/-- Chaining is only done behind another shot, so the image is the one that the trace tells. -/
theorem Going.starts {shot : Shot} {image : String} (going : Going machine run i loop history)
    (starts : startImg run i shot loop.prevLastUrl = some image)
    : StartsFrom run.job shot history image := by
  unfold StartsFrom
  rw [← going.chained, ← starts, startImg]
  by_cases chains : run.job.chain = true ∧ 0 < i
  · rw [if_pos chains]
  · have none_ : loop.prevLastUrl = none := by
      refine going.unchained ?_
      cases chain : run.job.chain with
      | false => exact .inl rfl
      | true => exact .inr (by simpa [chain] using chains)
    rw [if_neg chains, none_]
    rfl

/-- What a completed generation costs is spent. -/
theorem spent_bought {data : List (String × Json)} (completed : completedWith event = some data)
    : spent machine (history ++ [event])
      = spent machine history + reportedCost machine python data := by
  unfold spent
  rw [completions_append, completed, List.map_append, List.sum_append, Option.toList_some,
    List.map_singleton, List.sum_singleton]

/-- It has no URL, or is not among those without. -/
theorem urlless_bought {data : List (String × Json)} (completed : completedWith event = some data)
    : urlless (history ++ [event])
      = urlless history ++ if artifactUrl data = none then [data] else [] := by
  unfold urlless
  rw [completions_append, completed, List.filter_append, Option.toList_some, List.filter_singleton]
  simp

variable {call : HfCall} {generation : Generation python call}

/-- A generation that was completed with a URL is paid for. -/
theorem Going.pay {data : List (String × Json)} {url : String}
    (going : Going machine run i loop history)
    (completed : completedWith (⟨.generate call, generation⟩ : Event python) = some data)
    (found : artifactUrl data = some url)
    (returned : escapes (⟨.generate call, generation⟩ : Event python) = false)
    : Paid machine i (loop.charge (reportedCost machine python data)) url
        (history ++ [⟨.generate call, generation⟩]) where
  generated := by rw [generated_append, going.generated]; rfl
  count := going.count
  clips := by
    rw [downloaded_append, going.clips]
    exact List.append_nil _
  quiet := escapes_append history _ going.quiet returned
  cost := by
    rw [spent_bought completed, ← going.cost]
    rfl
  found := by
    rw [urlless_bought completed, going.found, if_neg (by simp [found])]
    rfl
  last := by
    refine ⟨data, ?_, found⟩
    rw [completions_append, completed]
    exact List.getLast?_concat
  chained := chained_append history _
  unfailed := going.unfailed

/-- Any other generation has no URL if it was completed. -/
theorem Going.lose (going : Going machine run i loop history)
    (lost
      : ∀ data, completedWith (⟨.generate call, generation⟩ : Event python) = some data
          → artifactUrl data = none)
    (returned : escapes (⟨.generate call, generation⟩ : Event python) = false)
    : Ended machine loop (history ++ [⟨.generate call, generation⟩]) where
  clips := by
    rw [downloaded_append, going.clips]
    exact List.append_nil _
  quiet := escapes_append history _ going.quiet returned
  cost := by
    cases completed : completedWith (⟨.generate call, generation⟩ : Event python) with
    | none =>
        rw [urlless_idle completed, spent_idle completed]
        exact going.ended.cost
    | some data =>
        rw [urlless_bought completed, spent_bought completed, going.found,
          if_pos (lost data completed), going.cost]
        simp
  lone := by
    cases completed : completedWith (⟨.generate call, generation⟩ : Event python) with
    | none =>
        rw [urlless_idle completed]
        exact going.ended.lone
    | some data =>
        rw [urlless_bought completed, going.found, if_pos (lost data completed)]
        exact Nat.le_refl 1

/-- One shot: the loop goes on or ends. -/
theorem stitchShot_turns {entries : List (Option Shot)} {shot : Shot} {later : List Shot}
    (listed : run.job.shotlist = some entries)
    (bounded : (entries.length : Int) ≤ spec.maxSegments.getD STITCH_MAX_SEGMENTS)
    (next : entries[i]? = some (some shot)) (going : Going machine run i loop history)
    : (stitchShot machine run i shot later loop : Prog python (Except String Loop)).Ensures
        (recording (Permitted spec run)) (fun result after => Turned machine run i result after)
        history := by
  refine .records trivial fun now => ?_
  have timed : Going machine run i loop (history ++ [⟨.monotonic, now⟩]) :=
    going.silent ⟨rfl, rfl, rfl, rfl⟩ rfl
  dsimp only
  split
  · exact .recorded (timed.ended.fail _ _)
  · split
    · exact .recorded (timed.ended.fail _ _)
    · next image starts =>
        split
        · exact .recorded (timed.ended.fail _ _)
        · next app _ =>
            have counted : (downloaded (history ++ [⟨.monotonic, now⟩])).length
                = generated (history ++ [⟨.monotonic, now⟩]) := by
              rw [timed.clips, timed.count, timed.generated]
            refine .records ⟨entries, shot, image, app, listed, bounded, ?_, counted,
              timed.starts starts, rfl⟩ fun generation => ?_
            · rw [timed.generated]
              exact next
            match ending : generation.ending with
            | .raised text =>
                refine .recorded ⟨_, _, rfl, ?_⟩
                simp only [escapes, ending]
            | .returned res =>
                have returned
                    : escapes (⟨.generate (hfCall run shot image app), generation⟩ : Event python)
                      = false := by
                  simp only [escapes, ending]
                dsimp only
                by_cases ok : res.status = .ok
                · obtain ⟨data, url, completed, found, kept, cost⟩ :=
                    generation.returned_ok ending ok
                  rw [if_neg (not_not.mpr ok), kept, Runner.artifactUrl_truthy found, cost]
                  exact keepClip_turns (timed.pay completed found returned)
                · rw [if_pos ok]
                  refine .recorded ((timed.lose ?_ returned).fail _ _)
                  exact fun data completed => generation.returned_error ending ok completed

-- The loop and what follows it

/-- The loop's end: an exception, or everything added up as far as it can be. -/
def Looped (machine : Machine) (result : Except String Loop) (history : Trace python) : Prop :=
  match result with
  | .error _ => Escaped history
  | .ok loop => Ended machine loop history

/-- By induction on the shots that are left, which are the rest of the list. -/
theorem stitchShots_loops {entries : List (Option Shot)} {shots : List Shot}
    (listed : run.job.shotlist = some entries)
    (bounded : (entries.length : Int) ≤ spec.maxSegments.getD STITCH_MAX_SEGMENTS)
    (left : entries.drop i = shots.map some) (going : Going machine run i loop history)
    : (stitchShots machine run i shots loop : Prog python (Except String Loop)).Ensures
        (recording (Permitted spec run)) (fun result after => Looped machine result after)
        history := by
  induction shots generalizing i loop history with
  | nil => exact .recorded going.ended
  | cons shot later induction =>
      have next : entries[i]? = some (some shot) := by
        rw [← List.head?_drop, left]
        rfl
      have rest : entries.drop (i + 1) = later.map some := by
        rw [← List.tail_drop, left]
        rfl
      refine Ensures.bind (stitchShot_turns listed bounded next going) fun result after turned => ?_
      cases result with
      | error text => exact .recorded turned
      | ok loop =>
          unfold Turned at turned
          dsimp only at turned ⊢
          match failed : loop.failed with
          | some where_ =>
              rw [failed] at turned
              exact .recorded turned
          | none =>
              rw [failed] at turned
              exact induction rest turned

/-- The report leaves out at most the cost of one generation without a URL. -/
structure Settled (machine : Machine) (res : Result) (history : Trace python) : Prop where
  quiet : ∀ event ∈ history, escapes event = false
  cost
    : res.cost.getD 0 + ((urlless history).map (reportedCost machine python)).sum
      = spent machine history
  lone : (urlless history).length ≤ 1

theorem named_getD (cost : ℚ) : (named cost).getD 0 = cost := by
  unfold named
  split
  · next zero => exact zero.symm
  · rfl

/-- The result reports what the loop has added up. -/
theorem Ended.settled {res : Result} (ended : Ended machine loop history)
    (cost : res.cost = named loop.totalCost)
    : Settled machine res history :=
  ⟨ended.quiet, by rw [cost, named_getD, ended.cost], ended.lone⟩

/-- However the clips are put together, the report names the cost. -/
theorem assemble_settles {shots : List Shot} (ended : Ended machine loop history)
    : (assemble machine run shots loop : Prog python Result).Ensures
        (recording (Permitted spec run)) (fun res after => Settled machine res after) history := by
  unfold assemble
  dsimp only
  match clips : loop.clips with
  | [] => exact .recorded (ended.settled rfl)
  | refClip :: others =>
      refine .records trivial fun answer => ?_
      cases answer with
      | error raised => exact .recorded ((ended.silent ⟨rfl, rfl, rfl, rfl⟩).settled rfl)
      | ok made =>
          refine .records trivial fun endCard => ?_
          refine .records ⟨_, refClip, endCard, rfl, ?_⟩ fun answer => ?_
          · rw [Silent.downloads ⟨rfl, rfl, rfl, rfl⟩, Silent.downloads ⟨rfl, rfl, rfl, rfl⟩,
              ended.clips, clips]
          · have put
                : Ended machine loop
                    (history ++ [⟨.makeOutDir machine.outDir, .ok made⟩]
                      ++ [⟨.resolveEndCard refClip, endCard⟩]) :=
              (ended.silent ⟨rfl, rfl, rfl, rfl⟩).silent ⟨rfl, rfl, rfl, rfl⟩
            match answer with
            | .error (.ffmpeg text) =>
                exact .recorded ((put.silent ⟨rfl, rfl, rfl, rfl⟩).settled rfl)
            | .error (.other raised) =>
                exact .recorded ((put.silent ⟨rfl, rfl, rfl, rfl⟩).settled rfl)
            | .ok _ =>
                dsimp only
                match loop.failed with
                | some failed => exact .recorded ((put.silent ⟨rfl, rfl, rfl, rfl⟩).settled rfl)
                | none => exact .recorded ((put.silent ⟨rfl, rfl, rfl, rfl⟩).settled rfl)

/-- A run's end, and that of the part of it that spends. -/
def Finished (machine : Machine) (result : Except String Result) (history : Trace python) : Prop :=
  match result with
  | .error _ => Escaped history
  | .ok res => Settled machine res history

/-- The loop over the shots, by induction on those that are left. -/
theorem render_finishes {entries : List (Option Shot)} {shots : List Shot}
    (listed : run.job.shotlist = some entries)
    (bounded : (entries.length : Int) ≤ spec.maxSegments.getD STITCH_MAX_SEGMENTS)
    (all : entries = shots.map some) (going : Going machine run 0 .start history)
    : (render machine run shots : Prog python (Except String Result)).Ensures
        (recording (Permitted spec run)) (fun result after => Finished machine result after)
        history := by
  refine Ensures.bind (stitchShots_loops listed bounded all going) fun result after looped => ?_
  cases result with
  | error text => exact .recorded looped
  | ok loop => exact Ensures.map (assemble_settles looped)

end Books

end Stitch
