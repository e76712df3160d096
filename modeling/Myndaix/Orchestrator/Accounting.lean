import Myndaix.Orchestrator.Driver

/-! What a run of the driver spends and what its manifest says it cost. The supplier is called
behind the gate only, within the plan's attempts, and never after it failed. The manifest of a plate
that passed adds up all attempts; the other manifests leave out the plates that were rejected
before.
-/

namespace Orchestrator

open Interaction Interaction.Program Rounding

-- The calls of the supplier

variable {plate : Plate}

section Calls

abbrev Trace : Type :=
  List (Interaction.Event Query Answer)

/-- The supplier's answers, in the order in which they came. -/
def supplied : Trace → List (Except Raised Plate)
  | [] => []
  | ⟨.supplier _ _, answer⟩ :: rest => answer :: supplied rest
  | _ :: rest => supplied rest

/-- Before a call of the supplier, some plan was approved that allows for it, and no call failed. -/
def MaySupply (before : Trace) : Prop :=
  ∃ plan,
    (⟨.approve plan, true⟩ : Interaction.Event Query Answer) ∈ before
    ∧ (supplied before).length < plan.maxAttempts
    ∧ ∀ error, .error error ∉ supplied before

/-- Every call of the supplier was allowed when it was made. -/
def Gated (trace : Trace) : Prop :=
  ∀ before context deadline answer after,
    trace = before ++ ⟨.supplier context deadline, answer⟩ :: after → MaySupply before

/-- What a run may ask at some point of its history. -/
def Permitted (before : Trace) : Query → Prop
  | .supplier _ _ => MaySupply before
  | _ => True

theorem supplied_append (before after : Trace)
    : supplied (before ++ after) = supplied before ++ supplied after := by
  fun_induction supplied before with
  | case1 => rfl
  | case2 _ _ answer rest ih => simpa only [List.cons_append, supplied, List.cons.injEq, true_and]
  | case3 event rest other ih =>
      rw [List.cons_append, supplied.eq_3 event (rest ++ after) other, ih]

variable {request : Request} {shot : Shot} {routed : Routed} {plan : Plan} {history : Trace}

theorem judge_permitted
    : (judge request shot plate).Ensures (recording Permitted)
        (fun _ after => ∃ more, after = history ++ more ∧ supplied more = []) history := by
  unfold judge
  match plate.artifactRef with
  | none => exact .recorded ⟨[], by simp, rfl⟩
  | some artifactRef =>
      cases request.renderType with
      | generic =>
          exact Ensures.records_answer trivial fun answer => ⟨_, rfl, rfl⟩
      | persona =>
          exact Ensures.records_answer trivial fun answer => ⟨_, rfl, rfl⟩

/-- With the plan approved and as many attempts left as the plan has more than were made, by
induction on the attempts that are left.
-/
theorem attemptLoop_permitted {left : ℕ} {motionStrength : ℚ} {attempts : List Attempt}
    (approved : (⟨.approve plan, true⟩ : Interaction.Event Query Answer) ∈ history)
    (room : (supplied history).length + left ≤ plan.maxAttempts)
    (sound : ∀ error, .error error ∉ supplied history)
    : (attemptLoop request shot routed plan left motionStrength attempts).Ensures
        (recording Permitted) (fun _ _ => True) history := by
  induction left generalizing motionStrength attempts history with
  | zero => exact .recorded trivial
  | succ left ih =>
      refine .records ⟨plan, approved, by omega, sound⟩ fun answer => ?_
      cases answer with
      | error error => exact .recorded trivial
      | ok plate =>
          refine Ensures.bind judge_permitted ?_
          rintro verdict after ⟨more, rfl, unsupplied⟩
          cases verdict with
          | error error => exact .recorded trivial
          | ok verdict =>
              dsimp only
              split
              · exact .recorded trivial
              · have answers
                    : supplied (history
                        ++ [⟨.supplier (context request routed motionStrength) deadline, .ok plate⟩]
                        ++ more)
                      = supplied history ++ [.ok plate] := by
                  rw [supplied_append, supplied_append, unsupplied, List.append_nil]
                  rfl
                refine ih ?_ ?_ ?_
                · simp [approved]
                · rw [answers, List.length_append, List.length_singleton]
                  omega
                · intro error mem
                  rw [answers, List.mem_append, List.mem_singleton] at mem
                  rcases mem with mem | same
                  · exact sound error mem
                  · cases same

theorem gate_permitted (fresh : supplied history = [])
    : (gate request shot routed).Ensures (recording Permitted) (fun _ _ => True) history := by
  refine .records trivial fun approved => ?_
  cases approved with
  | false => exact .recorded trivial
  | true =>
      have none_ : supplied (history ++ [⟨.approve (planOf request routed), true⟩]) = [] := by
        rw [supplied_append, fresh]
        rfl
      refine attemptLoop_permitted (by simp) ?_ ?_
      · rw [none_]
        simp
      · simp [none_]

theorem run_permitted
    : (run request).Ensures (recording Permitted) (fun _ _ => True) [] := by
  refine .records trivial fun built => ?_
  cases built with
  | error error => exact .recorded trivial
  | ok shot =>
      dsimp only
      split
      · exact .recorded trivial
      · split
        · refine .records trivial fun embedded => ?_
          cases embedded with
          | error error => exact .recorded trivial
          | ok _ => exact Ensures.map (gate_permitted rfl)
        · exact Ensures.map (gate_permitted rfl)

/-- However the answers come and wherever the run ends or is cut off. -/
theorem run_gated {trace : Trace} {result : Option (Except Uncaught Manifest)}
    (traces : (run request).Traces trace result)
    : Gated trace := by
  intro before context deadline answer after same
  have permitted := (run_permitted.traced traces).1 before _ after same
  rwa [List.nil_append] at permitted

end Calls

-- What was charged and what is reported

section Costs

/-- What came of an attempt: no plate, a plate that could not be checked, or one with its verdict.
-/
inductive Round where
  | failed
  | unjudged (plate : Plate)
  | judged (plate : Plate) (verdict : Verdict)
deriving DecidableEq, Repr

/-- The attempts, read off the answers of the supplier and of the checks. -/
def rounds : Trace → List Round
  | [] => []
  | ⟨.supplier _ _, .error _⟩ :: rest => .failed :: rounds rest
  | ⟨.supplier _ _, .ok plate⟩ :: ⟨.judge _ _, .ok verdict⟩ :: rest =>
      .judged plate verdict :: rounds rest
  | ⟨.supplier _ _, .ok plate⟩ :: rest => .unjudged plate :: rounds rest
  | _ :: rest => rounds rest

def Round.plate? : Round → Option Plate
  | .failed => none
  | .unjudged plate | .judged plate _ => some plate

/-- The plates that the supplier rendered, each of which it charged for. -/
def plates (rounds : List Round) : List Plate :=
  rounds.filterMap Round.plate?

/-- What a plate costs: what its supplier names, and the estimate where it names nothing. -/
def Plate.charge (plate : Plate) (estimate : ℚ) : ℚ :=
  plate.cost.getD estimate

/-- The costs of all plates, rejected ones included. -/
def charged (estimate : ℚ) (rounds : List Round) : ℚ :=
  ((plates rounds).map (Plate.charge · estimate)).sum

def logged (rounds : List Round) : ℚ :=
  ((plates rounds).map Plate.named).sum

/-- The estimate of the request's role. -/
def Request.estimate (request : Request) : ℤ :=
  (costEst.lookup request.role).getD costEstFiller

/-- The manifest's cost, nothing where it names none, is that of the plates, at four decimals. -/
def Accounts (request : Request) (trace : Trace) (manifest : Manifest) : Prop :=
  manifest.cost.getD 0 = roundTo 4 (charged request.estimate (rounds trace))

/-- At four decimals, an amount makes no difference beside another one. -/
def Negligible (amount beside : ℚ) : Prop :=
  roundTo 4 (amount + beside) = roundTo 4 beside

/-- The run's last plate passed and all plates name their costs, or the plates that were rejected
before it ended otherwise come to nothing. A plate that names no cost at all and cannot be checked
goes for the estimate, so what was rejected before has to come to just that.
-/
def Accountable (estimate : ℚ) (rounds : List Round) : Prop :=
  match rounds.getLast? with
  | some (.judged _ verdict) =>
      if verdict.status = .fail then Negligible (charged estimate rounds) 0
      else ∀ plate ∈ plates rounds, plate.cost ≠ none
  | some (.unjudged plate) =>
      if plate.cost = some 0 then roundTo 4 (charged estimate rounds.dropLast) = estimate
      else Negligible (charged estimate rounds.dropLast) (plate.charge estimate)
  | some .failed | none => Negligible (charged estimate rounds) 0

/-- What the manifest says after such attempts, with so much in the attempts before them. -/
def reported (estimate spent : ℚ) (rounds : List Round) : ℚ :=
  match rounds.getLast? with
  | some (.judged _ verdict) =>
      if verdict.status = .fail then 0 else roundTo 4 (spent + logged rounds)
  | some (.unjudged plate) => roundTo 4 (plate.paid estimate)
  | some .failed | none => 0

/-- A rejected plate only adds to what was spent. -/
theorem reported_rejected {estimate spent : ℚ} {verdict : Verdict}
    (rejected : verdict.status = .fail) (rest : List Round)
    : reported estimate spent (.judged plate verdict :: rest)
      = reported estimate (spent + plate.named) rest := by
  cases rest with
  | nil => simp [reported, rejected]
  | cons next rest =>
      have named
          : logged (.judged plate verdict :: next :: rest)
            = plate.named + logged (next :: rest) := by
        simp [logged, plates, Round.plate?]
      simp only [reported, List.getLast?_cons_cons, named, add_assoc]

variable {request : Request} {shot : Shot} {routed : Routed} {plan : Plan} {trace : Trace}

/-- A check is one answer, unless the plate has nothing to check. -/
theorem judge_traces {answer : Except Raised Verdict}
    (traces : (judge request shot plate).Traces trace (some answer))
    : (trace = [] ∧ ∃ error, answer = .error error)
      ∨ ∃ check artifactRef, trace = [⟨.judge check artifactRef, answer⟩] := by
  unfold judge at traces
  match found : plate.artifactRef with
  | none =>
      rw [found] at traces
      obtain ⟨rfl, rfl⟩ := traces_done traces
      exact .inl ⟨rfl, _, rfl⟩
  | some artifactRef =>
      rw [found] at traces
      cases kind : request.renderType with
      | generic =>
          rw [kind] at traces
          exact .inr ⟨_, _, traces_answer traces⟩
      | persona =>
          rw [kind] at traces
          exact .inr ⟨_, _, traces_answer traces⟩

theorem rounds_unjudged {context : Context} {deadline : ℚ} {error : Raised}
    (checked : trace = [] ∨ ∃ check artifactRef, trace = [⟨.judge check artifactRef, .error error⟩])
    : rounds (⟨.supplier context deadline, .ok plate⟩ :: trace) = [.unjudged plate] := by
  rcases checked with rfl | ⟨check, artifactRef, rfl⟩
  · rfl
  · rfl

/-- By induction on the attempts that are left. -/
theorem attemptLoop_reports {left : ℕ} {motionStrength : ℚ} {attempts : List Attempt}
    {manifest : Manifest}
    (traces
      : (attemptLoop request shot routed plan left motionStrength attempts).Traces trace
          (some manifest))
    : manifest.cost.getD 0
      = reported (estimateCost routed) (attempts.map Attempt.cost).sum (rounds trace) := by
  induction left generalizing motionStrength attempts trace with
  | zero =>
      obtain ⟨rfl, rfl⟩ := traces_done traces
      rfl
  | succ left ih =>
      obtain ⟨answer, rest, rfl, continued⟩ := traces_ask traces
      cases answer with
      | error error =>
          obtain ⟨rfl, rfl⟩ := traces_done continued
          rfl
      | ok plate =>
          obtain ⟨_, cut⟩ | ⟨before, after, answer, rfl, judged, concluded⟩ := traces_bind continued
          · cases cut
          have checked := judge_traces judged
          cases answer with
          | error error =>
              obtain ⟨rfl, rfl⟩ := traces_done concluded
              rw [List.append_nil, rounds_unjudged (checked.imp_left And.left)]
              rfl
          | ok verdict =>
              obtain ⟨_, _, same⟩ | ⟨check, artifactRef, rfl⟩ := checked
              · cases same
              have told
                  : rounds (⟨.supplier (context request routed motionStrength) deadline, .ok plate⟩
                        :: ([⟨.judge check artifactRef, .ok verdict⟩] ++ after))
                    = .judged plate verdict :: rounds after :=
                rfl
              dsimp only at concluded
              rw [told]
              split at concluded
              · rename_i passed
                obtain ⟨rfl, rfl⟩ := traces_done concluded
                simp [reported, rounds, passed, logged, plates, Round.plate?,
                  Manifest.cost, delivered,
                  judgedAttempt]
              · rename_i rejected
                rw [reported_rejected (not_not.mp rejected), ih concluded]
                simp [judgedAttempt]

/-- The route's estimate is the role's. -/
theorem route_estimate {role : String} {motion : Option String} {motionStrength : Option ℚ}
    (routes : route shot role motion motionStrength = .ok routed)
    : estimateCost routed = (((costEst.lookup role).getD costEstFiller : ℤ) : ℚ) := by
  unfold route at routes
  split at routes
  · cases routes
  · dsimp only at routes
    split at routes
    · cases routes
    · cases routes
      rfl

theorem rounds_buildPrompt {brief brand : String} {renderType : RenderType}
    {built : Except Raised Shot}
    : rounds (⟨.buildPrompt brief brand renderType, built⟩ :: trace) = rounds trace :=
  rfl

theorem rounds_embedRef {refImage : Option String} {imageUrl : String}
    {embedded : Except Raised Unit}
    : rounds (⟨.embedRef refImage imageUrl, embedded⟩ :: trace) = rounds trace :=
  rfl

theorem rounds_approve {approved : Bool}
    : rounds (⟨.approve plan, approved⟩ :: trace) = rounds trace :=
  rfl

theorem gate_reports {manifest : Manifest}
    (traces : (gate request shot routed).Traces trace (some manifest))
    : manifest.cost.getD 0 = reported (estimateCost routed) 0 (rounds trace) := by
  obtain ⟨approved, rest, rfl, continued⟩ := traces_ask traces
  cases approved with
  | false =>
      obtain ⟨rfl, rfl⟩ := traces_done continued
      rfl
  | true =>
      have reports
          : manifest.cost.getD 0
            = reported (estimateCost routed) (List.map Attempt.cost []).sum (rounds rest) :=
        attemptLoop_reports continued
      rw [rounds_approve, reports, List.map_nil, List.sum_nil]

theorem run_reports {manifest : Manifest}
    (traces : (run request).Traces trace (some (.ok manifest)))
    : manifest.cost.getD 0 = reported request.estimate 0 (rounds trace) := by
  obtain ⟨built, rest, rfl, built_⟩ := traces_ask traces
  cases built with
  | error error =>
      obtain ⟨_, same⟩ := traces_done built_
      cases same
  | ok shot =>
      dsimp only at built_
      split at built_
      · obtain ⟨_, same⟩ := traces_done built_
        cases same
      · rename_i routed routes
        have estimate : estimateCost routed = request.estimate := route_estimate routes
        rw [← estimate, rounds_buildPrompt]
        split at built_
        · obtain ⟨embedded, rest, rfl, embedded_⟩ := traces_ask built_
          cases embedded with
          | error error =>
              obtain ⟨rfl, same⟩ := traces_done embedded_
              cases same
              rfl
          | ok _ =>
              obtain ⟨_, same, gated⟩ := traces_map embedded_
              cases same
              rw [rounds_embedRef]
              exact gate_reports gated
        · obtain ⟨_, same, gated⟩ := traces_map built_
          cases same
          exact gate_reports gated

-- When the two agree

theorem estimate_pos (request : Request) : 0 < request.estimate := by
  unfold Request.estimate costEst
  simp only [List.lookup_cons, List.lookup_nil]
  split
  · decide
  · split
    · decide
    · decide

/-- What a plate costs beyond what it names is the estimate or nothing. -/
theorem charged_eq (estimate : ℚ) (rounds : List Round)
    : charged estimate rounds
      = logged rounds + ((plates rounds).countP (·.cost = none)) * estimate := by
  unfold charged logged
  induction plates rounds with
  | nil => simp
  | cons plate rest ih =>
      simp only [List.map_cons, List.sum_cons, ih, List.countP_cons]
      cases named : plate.cost with
      | none =>
          simp [Plate.charge, Plate.named, named]
          ring
      | some cost =>
          simp [Plate.charge, Plate.named, named]
          ring

/-- The last plate's cost is added to the ones before it. -/
theorem charged_getLast {estimate : ℚ} {rounds : List Round}
    (last : rounds.getLast? = some (.unjudged plate))
    : charged estimate rounds = charged estimate rounds.dropLast + plate.charge estimate := by
  obtain ⟨before, rfl⟩ := List.getLast?_eq_some_iff.mp last
  simp [charged, plates, Round.plate?, List.filterMap_append]

/-- The sum of what is named is what was charged, exactly if every plate names its cost. -/
theorem logged_charged {estimate : ℤ} (positive : 0 < estimate) (rounds : List Round)
    : roundTo 4 (logged rounds) = roundTo 4 (charged estimate rounds)
      ↔ ∀ plate ∈ plates rounds, plate.cost ≠ none := by
  rw [charged_eq]
  generalize counted : (plates rounds).countP (·.cost = none) = unnamed
  have shifted
      : roundTo 4 (logged rounds + (unnamed : ℚ) * (estimate : ℚ))
        = roundTo 4 (logged rounds) + ((unnamed * estimate : ℤ) : ℚ) := by
    rw [← roundTo_add_int (by decide)]
    push_cast
    rfl
  rw [shifted, left_eq_add, Int.cast_eq_zero, mul_eq_zero]
  constructor
  · rintro (zero | zero)
    · rw [Int.natCast_eq_zero, ← counted, List.countP_eq_zero] at zero
      simpa using zero
    · omega
  · intro named
    left
    rw [Int.natCast_eq_zero, ← counted, List.countP_eq_zero]
    simpa using named

theorem roundTo_int (whole : ℤ) : roundTo 4 whole = whole := by
  have shifted : roundTo 4 (0 + whole) = roundTo 4 0 + whole := roundTo_add_int (by decide) 0 whole
  rwa [zero_add, roundTo_zero, zero_add] at shifted

/-- By the way the run ended. -/
theorem reported_within_iff {estimate : ℤ} (positive : 0 < estimate) (rounds : List Round)
    : reported estimate 0 rounds = roundTo 4 (charged estimate rounds)
      ↔ Accountable estimate rounds := by
  have nothing (amount : ℚ) : 0 = roundTo 4 amount ↔ Negligible amount 0 := by
    rw [Negligible, add_zero, roundTo_zero, eq_comm]
  unfold reported Accountable
  match last : rounds.getLast? with
  | none => exact nothing _
  | some .failed => exact nothing _
  | some (.judged plate verdict) =>
      dsimp only
      split
      · exact nothing _
      · rw [zero_add]
        exact logged_charged positive rounds
  | some (.unjudged plate) =>
      dsimp only
      rw [charged_getLast last]
      split
      · rename_i free
        simp only [Plate.paid, Plate.charge, free, if_pos, Option.getD_some, add_zero, roundTo_int]
        exact eq_comm
      · rename_i priced
        have same : plate.paid estimate = plate.charge estimate := by
          unfold Plate.paid Plate.charge
          cases named : plate.cost with
          | none => rfl
          | some cost =>
              have nonzero : cost ≠ 0 := fun zero => priced (by rw [named, zero])
              exact if_neg nonzero
        rw [same, Negligible]
        exact eq_comm

/-- However the answers come: each call of the supplier comes after an approved plan that allows for
it and after no failure, and a manifest accounts for what was charged exactly if the attempts are
accountable.
-/
theorem run_accounts_iff {result : Option (Except Uncaught Manifest)}
    (traces : (run request).Traces trace result)
    : Gated trace
      ∧ ∀ manifest, result = some (.ok manifest)
          → (Accounts request trace manifest ↔ Accountable request.estimate (rounds trace)) := by
  refine ⟨run_gated traces, ?_⟩
  rintro manifest rfl
  rw [Accounts, run_reports traces]
  exact reported_within_iff (estimate_pos request) (rounds trace)

-- Two runs

def neonRequest : Request where
  brief := "neon city"
  imageUrl := "https://res.cloudinary.com/x/seed.png"

def neonShot : Shot where
  prompt := "Caption: neon city"
  hexes := ["#0A0A0A", "#1A1D22", "#5AE0A0"]

def neonRouted : Routed where
  motionName := "Dolly In"
  motionId := "81ca2cd2-05db-4222-9ba0-a32e5185adfb"
  motionStrength := 1 / 2
  costEst := 40
  prompt := "Caption: neon city"

def neonPlate : Plate where
  artifactRef := some "https://cdn.example/plate.mp4"
  cost := some 40

/-- The approved run up to its first attempt. -/
def neonStart : Trace := [
  ⟨.buildPrompt "neon city" "myndaix" .generic, .ok neonShot⟩,
  ⟨.approve (planOf neonRequest neonRouted), true⟩
]

def neonAttempt (motionStrength : ℚ) (answer : Except Raised Verdict) : Trace := [
  ⟨.supplier (context neonRequest neonRouted motionStrength) deadline, .ok neonPlate⟩,
  ⟨.judge (.generic neonShot.hexes) "https://cdn.example/plate.mp4", answer⟩
]

def rejection : Verdict where
  status := .fail
  motionStrengthDelta := some (-15 / 100)

/-- The first plate is rejected, and the second one passes. -/
def retriedTrace : Trace :=
  neonStart ++ neonAttempt (1 / 2) (.ok rejection)
    ++ neonAttempt (35 / 100) (.ok { status := .pass })

/-- The first plate is rejected, and the second one cannot be checked. -/
def unjudgedTrace : Trace :=
  neonStart ++ neonAttempt (1 / 2) (.ok rejection)
    ++ neonAttempt (35 / 100) (.error ⟨"RuntimeError", "ffmpeg boom"⟩)

theorem run_follows (request : Request) (trace : Trace) (cost : Option ℚ)
    (follows
      : (((run request).follow trace).bind Except.toOption).map Manifest.cost = some cost)
    : ∃ manifest, (run request).Traces trace (some (.ok manifest)) ∧ manifest.cost = cost := by
  match followed : (run request).follow trace with
  | none =>
      rw [followed] at follows
      cases follows
  | some (.error error) =>
      rw [followed] at follows
      cases follows
  | some (.ok manifest) =>
      rw [followed] at follows
      exact ⟨manifest, traces_follow followed, Option.some.inj follows⟩

theorem run_accounts_iff_retried
    : Gated retriedTrace
      ∧ ∃ manifest, manifest.cost = some 80 ∧ Accounts neonRequest retriedTrace manifest := by
  obtain ⟨manifest, traces, cost⟩ :=
    run_follows neonRequest retriedTrace (some 80) (by decide +kernel)
  obtain ⟨gated, accounts⟩ := run_accounts_iff traces
  refine ⟨gated, manifest, cost, (accounts manifest rfl).mpr ?_⟩
  change ∀ plate ∈ [neonPlate, neonPlate], plate.cost ≠ none
  decide +kernel

/-- The manifest names the second plate's 40 credits only. -/
theorem unjudged_underreports
    : ¬ ∀ request trace manifest,
          (run request).Traces trace (some (.ok manifest))
          → Gated trace ∧ Accounts request trace manifest := by
  intro claim
  obtain ⟨manifest, traces, cost⟩ :=
    run_follows neonRequest unjudgedTrace (some 40) (by decide +kernel)
  have accounts := (claim _ _ _ traces).2
  rw [Accounts, cost] at accounts
  revert accounts
  decide +kernel

end Costs

end Orchestrator
