import Mathlib.Data.List.Induction
import Myndaix.Stitch.Spending

/-! What a run of the stitcher reports is what its completed generations cost, exactly if no
exception escapes behind one of them and none without a URL has a cost.
-/

namespace Stitch

open Interaction
open Interaction.Program (Ensures recording)
open Runner (Generation HfCall Python submissions)

-- What comes before the first shot

section Early

variable {python : Python} {machine : Machine} {run : Run} {history : Trace python}

/-- The queries of a run that has not come to its shots. -/
def Early : Query → Prop
  | .monotonic | .mkdtemp | .makeWorkdir _ => True
  | _ => False

/-- Nothing is paid for early. -/
theorem Early.permitted {spec : Spec} {query : Query} (early : Early query)
    : Permitted spec run history query := by
  cases query <;> trivial

/-- Nothing is bought before the shots, by induction on the history. -/
theorem early_blank (early : ∀ event ∈ history, Early event.1)
    : generated history = 0 ∧ downloaded history = [] ∧ completions history = []
      ∧ chained history = none := by
  induction history using List.reverseRecOn with
  | nil => exact ⟨rfl, rfl, rfl, rfl⟩
  | append_singleton history event induction =>
      obtain ⟨none_, clips, statuses, frame⟩ :=
        induction fun other mem => early other (List.mem_append_left _ mem)
      have last := early event (by simp)
      rw [generated_append, downloaded_append, completions_append, chained_append, none_, clips,
        statuses, frame]
      obtain ⟨query, answer⟩ := event
      cases query with
      | monotonic | mkdtemp | makeWorkdir => exact ⟨rfl, rfl, rfl, rfl⟩
      | _ => exact last.elim

/-- So nothing is spent. -/
theorem early_unspent (early : ∀ event ∈ history, Early event.1)
    : spent machine history = 0 ∧ urlless history = [] := by
  obtain ⟨-, -, statuses, -⟩ := early_blank early
  unfold spent urlless
  rw [statuses]
  exact ⟨rfl, rfl⟩

/-- And the loop has yet to begin. -/
theorem early_going (early : ∀ event ∈ history, Early event.1)
    (quiet : ∀ event ∈ history, escapes event = false)
    : Going machine run 0 .start history where
  generated := (early_blank early).1
  count := rfl
  clips := (early_blank early).2.1
  quiet := quiet
  cost := (early_unspent early).1.symm
  found := (@early_unspent _ machine _ early).2
  chained := (early_blank early).2.2.2.symm
  unchained := fun _ => rfl
  unfailed := rfl

/-- A run that ends before its shots has nothing to account for. -/
theorem early_settled (early : ∀ event ∈ history, Early event.1)
    (quiet : ∀ event ∈ history, escapes event = false) (text : String)
    : Settled machine (err text 0 none) history := by
  obtain ⟨nothing, found⟩ := @early_unspent _ machine _ early
  refine ⟨quiet, ?_, ?_⟩ <;> rw [found]
  · rw [nothing, List.map_nil, List.sum_nil, add_zero]
    exact named_getD 0
  · exact Nat.zero_le 1

/-- The work directory is made early. -/
theorem making_early (workdir : String) (quiet : ∀ event ∈ history, escapes event = false)
    : (ask (.makeWorkdir workdir) >>= fun answer =>
        match answer with
        | .error raised => .done (.error raised.text)
        | .ok _ => .done (.ok workdir)
        : Prog python (Except String String)).Ensures
      (recording fun _ query => Early query)
      (fun result after =>
        match result with
        | .error _ => Escaped after
        | .ok _ => ∀ event ∈ after, escapes event = false)
      history := by
  refine .records trivial fun answer => ?_
  cases answer with
  | error raised => exact .recorded ⟨history, _, rfl, rfl⟩
  | ok made => exact .recorded (escapes_append history _ quiet rfl)

/-- Or it is the worktree. -/
theorem makeWorkdir_early (worktreePath : Option String)
    (quiet : ∀ event ∈ history, escapes event = false)
    : (makeWorkdir worktreePath : Prog python (Except String String)).Ensures
        (recording fun _ query => Early query)
        (fun result after =>
          match result with
          | .error _ => Escaped after
          | .ok _ => ∀ event ∈ after, escapes event = false)
        history := by
  unfold makeWorkdir
  split
  · exact making_early _ quiet
  · refine .records trivial fun answer => ?_
    cases answer with
    | error raised => exact .recorded ⟨history, _, rfl, rfl⟩
    | ok workdir => exact making_early workdir (escapes_append history _ quiet rfl)

end Early

-- Whole runs

section Runs

variable {python : Python} {machine : Machine} {spec : Spec} {job : Job} {trace : Trace python}

/-- What the stitcher does with the shots: everything it asks was permitted then, and no generation
sends a second submit request.
-/
structure Orderly (spec : Spec) (job : Job) (trace : Trace python) : Prop where
  permitted
    : ∃ run : Run,
        run.job = job
        ∧ ∀ before event after, trace = before ++ event :: after → Permitted spec run before event.1
  once
    : ∀ call generation, (⟨.generate call, generation⟩ : Event python) ∈ trace
        → submissions python call call.start generation.answers ≤ 1

/-- What is reported is the sum of what the completed generations cost. A run that raises reports
nothing.
-/
def Accounts (machine : Machine) (trace : Trace python) : Except String Result → Prop
  | .error _ => completions trace = []
  | .ok res => res.cost.getD 0 = spent machine trace

/-- No exception escapes behind a completed generation, and a completed generation without a URL
reports no cost.
-/
structure Calm (machine : Machine) (trace : Trace python) : Prop where
  caught
    : ∀ before event after,
        trace = before ++ event :: after → escapes event = true → completions before = []
  priced : ∀ data ∈ urlless trace, reportedCost machine python data = 0

/-- A list of shots without a gap. -/
theorem mapM_id_some {entries : List (Option Shot)} {shots : List Shot}
    (all : entries.mapM id = some shots)
    : entries = shots.map some := by
  induction entries generalizing shots with
  | nil =>
      cases all
      rfl
  | cons entry entries induction =>
      rw [List.mapM_cons] at all
      cases entry with
      | none => cases all
      | some shot =>
          cases rest : entries.mapM id with
          | none =>
              rw [rest] at all
              cases all
          | some others =>
              rw [rest] at all
              cases all
              rw [induction rest, List.map_cons]

/-- The shots of a plan are the job's, which are all objects and not too many. -/
theorem plan_ok {checked : Plan} (passed : plan machine spec job = .ok checked)
    : ∃ entries, job.shotlist = some entries
      ∧ (entries.length : Int) ≤ spec.maxSegments.getD STITCH_MAX_SEGMENTS
      ∧ entries = checked.shots.map some := by
  unfold plan at passed
  split at passed
  · cases passed
  · split at passed
    · cases passed
    · split at passed
      · cases passed
      · cases passed
      · next entries _ listed =>
          split at passed
          · cases passed
          · next shots all =>
              dsimp only at passed
              split at passed
              · cases passed
              · next bounded =>
                  cases passed
                  have same := mapM_id_some all
                  refine ⟨entries, listed, ?_, same⟩
                  rw [same, List.length_map]
                  omega

/-- A run stops before its shots or comes to them. -/
theorem invokeStitch_comes {result : Option (Except String Result)}
    (traces : (invokeStitch machine spec job).Traces trace result)
    : ((∀ event ∈ trace, Early event.1)
        ∧ ∀ value, result = some value → Finished machine value trace)
      ∨ ∃ before after run entries shots,
          trace = before ++ after
          ∧ (∀ event ∈ before, Early event.1)
          ∧ (∀ event ∈ before, escapes event = false)
          ∧ run.job = job
          ∧ job.shotlist = some entries
          ∧ (entries.length : Int) ≤ spec.maxSegments.getD STITCH_MAX_SEGMENTS
          ∧ entries = shots.map some
          ∧ (render machine run shots).Traces after result := by
  have refused {text : String} {before after : Trace python}
      (early : ∀ event ∈ before, Early event.1)
      (quiet : ∀ event ∈ before, escapes event = false)
      (traces
        : (Program.done (.ok (err text 0 none)) : Prog python (Except String Result)).Traces after
            result)
      : (∀ event ∈ before ++ after, Early event.1)
        ∧ ∀ value, result = some value → Finished machine value (before ++ after) := by
    obtain ⟨rfl, ended⟩ := traces
    rw [List.append_nil]
    refine ⟨early, fun value same => ?_⟩
    rcases ended with rfl | rfl
    · cases same
      exact early_settled early quiet text
    · cases same
  unfold invokeStitch at traces
  split at traces
  · rw [Program.ask_bind, Program.Traces] at traces
    rcases traces with ⟨rfl, rfl⟩ | ⟨started, rest, rfl, traces⟩
    · exact .inl ⟨fun event mem => absurd mem List.not_mem_nil, fun value same => by cases same⟩
    · have early : ∀ event ∈ ([⟨.monotonic, started⟩] : Trace python), Early event.1 := by
        intro event mem
        rw [List.mem_singleton.mp mem]
        trivial
      have quiet : ∀ event ∈ ([⟨.monotonic, started⟩] : Trace python), escapes event = false := by
        intro event mem
        rw [List.mem_singleton.mp mem]
        rfl
      split at traces
      · exact .inl (refused early quiet traces)
      · next checked passed =>
          obtain ⟨entries, listed, bounded, all⟩ := plan_ok passed
          have contract := @makeWorkdir_early python _ job.worktreePath quiet
          have extend {later : Trace python}
              (asked : ∀ before event after, later = before ++ event :: after → Early event.1)
              : ∀ event ∈ [⟨.monotonic, started⟩] ++ later, Early event.1 := by
            intro event mem
            rcases List.mem_append.mp mem with first | mem
            · exact early event first
            · obtain ⟨before, after, split⟩ := List.append_of_mem mem
              exact asked before event after split
          unfold stitch at traces
          rcases Program.traces_bind traces with ⟨cut, rfl⟩ |
            ⟨before, after, made, rfl, first, rest⟩
          · have asked := (contract.traced cut).1
            exact .inl ⟨extend asked, fun value same => by cases same⟩
          · obtain ⟨asked, ended⟩ := contract.traced first
            have ended := ended made rfl
            cases made with
            | error text =>
                obtain ⟨rfl, atEnd⟩ := rest
                rw [List.append_nil]
                refine .inl ⟨extend asked, fun value same => ?_⟩
                rcases atEnd with rfl | rfl
                · cases same
                  exact ended
                · cases same
            | ok workdir =>
                exact .inr
                  ⟨[⟨.monotonic, started⟩] ++ before, after, _, entries, checked.shots, rfl,
                  extend asked, ended, rfl, listed, bounded, all, rest⟩
  · have none_ {holds : Event python → Prop} : ∀ event ∈ ([] : Trace python), holds event :=
      fun event mem => absurd mem List.not_mem_nil
    exact .inl (refused none_ none_ traces)

/-- What a run asks is permitted when it does, and its end is accounted for as far as it can be. -/
theorem invokeStitch_finishes {result : Option (Except String Result)}
    (traces : (invokeStitch machine spec job).Traces trace result)
    : (∃ run : Run,
        run.job = job
        ∧ ∀ before event after, trace = before ++ event :: after
          → Permitted spec run before event.1)
      ∧ ∀ value, result = some value → Finished machine value trace := by
  rcases invokeStitch_comes traces with ⟨early, ended⟩ | found
  · refine ⟨⟨⟨"", "", "", 0, 0, none, job⟩, rfl, fun before event after split => ?_⟩, ended⟩
    exact (early event (split ▸ List.mem_append_right _ List.mem_cons_self)).permitted
  · obtain ⟨before, after, run, entries, shots, rfl, early, quiet, rfl, listed, bounded, all,
      traces⟩ := found
    have going : Going machine run 0 .start before := early_going early quiet
    have contract := render_finishes listed bounded all going
    obtain ⟨asked, ended⟩ := contract.traced traces
    refine ⟨⟨run, rfl, fun front event back split => ?_⟩, ended⟩
    rcases List.append_eq_append_iff.mp split with ⟨middle, rfl, rest⟩ | ⟨middle, rfl, rest⟩
    · exact asked middle event back rest
    · cases middle with
      | nil => 
          have first := asked [] event back rest.symm
          rwa [List.append_nil, List.append_nil] at *
      | cons other middle =>
          cases rest
          exact (early event (by simp)).permitted

/-- An exception of a generation comes before the server has completed it. -/
theorem escapes_incomplete {event : Event python} (escaped : escapes event = true)
    : completedWith event = none := by
  obtain ⟨query, answer⟩ := event
  cases query with
  | generate call =>
      unfold escapes at escaped
      dsimp only at escaped
      split at escaped
      · next text raised => exact answer.completion_raised raised
      · cases escaped
  | _ => rfl

/-- What completes nothing has completed nothing before. -/
theorem completions_prefix {before after : Trace python}
    (nothing : completions (before ++ after) = [])
    : completions before = [] := by
  unfold completions at nothing ⊢
  rw [List.filterMap_append] at nothing
  exact (List.append_eq_nil_iff.mp nothing).1

/-- At most one amount is a sum of zero just if it is zero. -/
theorem lone_sum {α : Type} {amount : α → ℚ} {items : List α} (lone : items.length ≤ 1)
    : (items.map amount).sum = 0 ↔ ∀ item ∈ items, amount item = 0 := by
  match items, lone with
  | [], _ => simp
  | [item], _ => simp

/-- However the generations, downloads, frames and uploads come out: each shot is generated at most
once, in order, behind downloaded clips and from its own image, the last shot's frame or the job's,
and the report adds up what was completed exactly if no exception escapes behind a completed
generation and none without a URL has a cost.
-/
theorem invokeStitch_accounts_iff {result : Option (Except String Result)}
    (traces : (invokeStitch machine spec job).Traces trace result)
    : Orderly spec job trace
      ∧ ∀ value, result = some value → (Accounts machine trace value ↔ Calm machine trace) := by
  obtain ⟨permitted, ends⟩ := invokeStitch_finishes traces
  refine ⟨⟨permitted, fun _ _ _ => Runner.submissions_le_one⟩, fun value same => ?_⟩
  have finished := ends value same
  cases value with
  | error text =>
      obtain ⟨before, event, rfl, escaped⟩ := finished
      constructor
      · intro nothing
        refine ⟨fun front other back split _ => ?_, fun data mem => ?_⟩
        · rw [split] at nothing
          exact completions_prefix nothing
        · have among := List.mem_of_mem_filter mem
          rw [show completions (before ++ [event]) = [] from nothing] at among
          cases among
      · intro calm
        have kept := @completions_idle _ before _ (escapes_incomplete escaped)
        exact kept.trans (calm.caught before event [] rfl escaped)
  | ok res =>
      have settled : Settled machine res trace := finished
      have priced := @lone_sum _ (reportedCost machine python) _ settled.lone
      have cost := settled.cost
      constructor
      · intro accounts
        refine ⟨fun before event after split escaped => ?_, priced.mp ?_⟩
        · have quiet := settled.quiet event (split ▸ List.mem_append_right _ List.mem_cons_self)
          rw [escaped] at quiet
          cases quiet
        · rw [show res.cost.getD 0 = spent machine trace from accounts] at cost
          exact add_eq_left.mp cost
      · intro calm
        rw [priced.mpr calm.priced, add_zero] at cost
        exact cost

end Runs

-- Two runs

def samplePython : Python where
  str := fun _ => "r1"
  repr := id
  lower := fun _ => "completed"
  isZero := fun _ => false
  isfinite := fun _ => true
  urlparse := fun _ => none
  subscriptError := fun _ => ""
  attributeError := fun _ => ""

def sampleMachine : Machine where
  httpxInstalled := true
  environ := fun name => if name = "HF_KEY" then some "k" else none
  expanduser := id
  amount := fun literal => if literal = "0.5" then 1 / 2 else 0

def sampleSpec : Spec where
  base := some "https://platform.example"
  secretRef := some "HF_KEY"
  application := some "dop"
  maxSegments := none
  pollRetryMax := 3
  timeoutS := 2400

/-- Two shots, the second one with an image of its own. -/
def sampleJob (second : String) : Job where
  id := "j"
  prompt := "city"
  timeoutS := 300
  worktreePath := some "/w"
  application := none
  imageUrl := some "https://cdn.example/a.png"
  shotlist := some [some {}, some { imageUrl := some second }]
  chain := true

def sampleCall (imageUrl : String) : HfCall where
  base := "https://platform.example"
  application := "dop"
  key := "k"
  prompt := "city"
  imageUrl := imageUrl
  deadline := 2400
  motionId := none
  motionStrength := none
  endImageUrl := none
  retryMax := 3

/-- A generation that is completed with its first poll. -/
def boughtClip (imageUrl : String) : Generation samplePython (sampleCall imageUrl) where
  answers := [
    .checked none,
    .response 200 "" (.ok (.object [("request_id", .string "r1")])),
    .clock 2,
    .response 200 "" (.ok (.object [
      ("status", .string "completed"),
      ("video", .object [("url", .string "https://cdn.example/clip.mp4")]),
      ("cost", .number "0.5")
    ]))
  ]
  ending := .returned {
    status := .ok,
    text := "https://cdn.example/clip.mp4",
    errorClass := none,
    artifactRef := some "https://cdn.example/clip.mp4",
    exitCode := none,
    cost := some "0.5"
  }
  followed := rfl

/-- `getaddrinfo` on a host with an empty label raises what the URL guard does not catch. -/
def emptyLabel (imageUrl : String) : Generation samplePython (sampleCall imageUrl) where
  answers := [.raised "UnicodeError" "label empty or too long"]
  ending := .raised "label empty or too long"
  followed := rfl

/-- The run up to the second shot's generation. -/
def sampleStart : Trace samplePython := [
  ⟨.monotonic, (0 : Int)⟩,
  ⟨.makeWorkdir "/w", .ok ()⟩,
  ⟨.monotonic, (1 : Int)⟩,
  ⟨.generate (sampleCall "https://cdn.example/a.png"), boughtClip "https://cdn.example/a.png"⟩,
  ⟨.rejectUnsafeUrl "https://cdn.example/clip.mp4", .ok none⟩,
  ⟨.download "https://cdn.example/clip.mp4" "/w/seg_000.mp4", .ok ()⟩,
  ⟨.monotonic, (3 : Int)⟩
]

/-- Both clips are put together. -/
def wholeTrace : Trace samplePython :=
  sampleStart ++ [
    ⟨.generate (sampleCall "https://cdn.example/b.png"), boughtClip "https://cdn.example/b.png"⟩,
    ⟨.rejectUnsafeUrl "https://cdn.example/clip.mp4", .ok none⟩,
    ⟨.download "https://cdn.example/clip.mp4" "/w/seg_001.mp4", .ok ()⟩,
    ⟨.makeOutDir "~/.myndaix/stitches", .ok ()⟩,
    ⟨.resolveEndCard "/w/seg_000.mp4", (none : Option String)⟩,
    ⟨.concat ["/w/seg_000.mp4", "/w/seg_001.mp4"] "~/.myndaix/stitches/stitch_j.mp4", .ok ()⟩
  ]

/-- The guard of the second shot's image raises. -/
def raisedTrace : Trace samplePython :=
  sampleStart ++ [
    ⟨.generate (sampleCall "https://cdn..example/b.png"), emptyLabel "https://cdn..example/b.png"⟩
  ]

theorem wholeTrace_follows
    : ∃ res,
        (invokeStitch sampleMachine sampleSpec (sampleJob "https://cdn.example/b.png")).Traces
          wholeTrace (some (.ok res))
        ∧ res.cost = some 1 := by
  have cost
      : (((invokeStitch sampleMachine sampleSpec (sampleJob "https://cdn.example/b.png")).follow
            wholeTrace).bind Except.toOption).map Result.cost
        = some (some 1) := by
    decide +kernel
  obtain ⟨res, ended, same⟩ := Option.map_eq_some_iff.mp cost
  obtain ⟨value, followed, isOk⟩ := Option.bind_eq_some_iff.mp ended
  cases value with
  | error text => cases isOk
  | ok other =>
      cases isOk
      exact ⟨_, Program.traces_follow followed, same⟩

theorem raisedTrace_follows
    : (invokeStitch sampleMachine sampleSpec (sampleJob "https://cdn..example/b.png")).Traces
        raisedTrace (some (.error "label empty or too long")) :=
  Program.traces_follow (by rfl)

/-- Two clips at half a credit each. -/
theorem invokeStitch_accounts_iff_whole
    : Orderly sampleSpec (sampleJob "https://cdn.example/b.png") wholeTrace
      ∧ ∃ res, res.cost = some 1 ∧ Accounts sampleMachine wholeTrace (.ok res) := by
  obtain ⟨res, traces, cost⟩ := wholeTrace_follows
  obtain ⟨orderly, accounts⟩ := invokeStitch_accounts_iff traces
  refine ⟨orderly, res, cost, (accounts (.ok res) rfl).mpr ⟨?_, ?_⟩⟩
  · have quiet : ∀ event ∈ wholeTrace, escapes event = false := by decide +kernel
    intro before event after split escaped
    have caught := quiet event (split ▸ List.mem_append_right _ List.mem_cons_self)
    rw [escaped] at caught
    cases caught
  · have found : urlless wholeTrace = [] := by rfl
    rw [found]
    exact fun data mem => absurd mem List.not_mem_nil

/-- The first clip was paid for and downloaded, and the run reports neither. -/
theorem paid_shot_lost
    : ¬ ∀ machine spec job (trace : Trace samplePython) value,
          (invokeStitch machine spec job).Traces trace (some value)
          → Orderly spec job trace ∧ Accounts machine trace value := by
  intro claim
  have accounts := (claim _ _ _ _ _ raisedTrace_follows).2
  have lengths := congrArg List.length (show completions raisedTrace = [] from accounts)
  revert lengths
  decide +kernel

end Stitch
