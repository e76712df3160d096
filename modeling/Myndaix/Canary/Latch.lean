import Mathlib.Data.List.Nodup
import Myndaix.Canary.Liveness

/-! The grow-only latch holds exactly the keys that were announced since the last clean run. So a
run announces what the operator does not know yet, and nothing else.
-/

namespace Canary

open Text

-- Framed keys

/-- Lines that can be members of a framed text. -/
def Lines (keys : List Str) : Prop :=
  ∀ key ∈ keys, key ≠ [] ∧ '\n' ∉ key

/-- No key of a list of lines has a line feed. -/
theorem Lines.clean {keys : List Str} (lines : Lines keys) : ∀ key ∈ keys, '\n' ∉ key :=
  fun key mem => (lines key mem).2

/-- Lists of lines are joined. -/
theorem Lines.append {early late : List Str} (first : Lines early) (second : Lines late)
    : Lines (early ++ late) :=
  fun key mem => (List.mem_append.mp mem).elim (first key) (second key)

local instance lawfulStr : LawfulBEq Str :=
  inferInstance

/-- Adding a line that is not known. -/
def join (known : List Str) (key : Str) : List Str :=
  if key ∈ known then known else known ++ [key]

/-- A key joins the known ones. -/
theorem mem_join {known : List Str} {key other : Str}
    : other ∈ join known key ↔ other ∈ known ∨ other = key := by
  unfold join
  split
  · rename_i mem
    exact ⟨.inl, fun found => found.elim id fun same => same ▸ mem⟩
  · rw [List.mem_append, List.mem_singleton]

/-- The keys of the run's divergences, each once. -/
def keysOf (found : List (Key × Str)) : List Str :=
  found.foldl (fun known (key, _) => join known key.text) []

/-- A divergence adds its key to the framed ones. -/
theorem diverge_keys {before : Divergences} {known : List Str} (key : Key) (message : Str)
    (lines : Lines known) (frames : before.keys = framed '\n' known)
    : (diverge before key message).keys = framed '\n' (join known key.text) := by
  have test : framedIn '\n' key.text before.keys = true ↔ key.text ∈ known := by
    rw [frames]
    exact framedIn_framed lines.clean key.oneLine
  unfold diverge join
  dsimp only
  by_cases mem : key.text ∈ known
  · rw [if_pos (test.mpr mem), if_pos mem, frames]
  · rw [if_neg (fun found => mem (test.mp found)), if_neg mem, frames, addKey, framed_append]

/-- What the loop of the checks comes to, by induction on the divergences. -/
theorem foldl_diverge (found : List (Key × Str)) {before : Divergences} {known : List Str}
    (lines : Lines known) (frames : before.keys = framed '\n' known)
    : let after :=
        found.foldl (fun divergences (key, message) => diverge divergences key message) before
      let keys := found.foldl (fun known (key, _) => join known key.text) known
      after.keys = framed '\n' keys ∧ after.count = before.count + found.length ∧ Lines keys
      ∧ ∀ other, other ∈ keys ↔ other ∈ known ∨ other ∈ found.map (fun (key, _) => key.text) := by
  induction found generalizing before known with
  | nil => exact ⟨frames, rfl, lines, by simp⟩
  | cons divergence found ih =>
      obtain ⟨key, message⟩ := divergence
      have joined : Lines (join known key.text) := by
        intro other mem
        rcases mem_join.mp mem with mem | rfl
        · exact lines other mem
        · exact ⟨key.nonempty, key.oneLine⟩
      obtain ⟨sameKeys, count, keysLines, mem⟩ := ih joined (diverge_keys key message lines frames)
      refine ⟨sameKeys, ?_, keysLines, fun other => ?_⟩
      · have counted : (diverge before key message).count = before.count + 1 := rfl
        rw [List.foldl_cons, count, List.length_cons, counted]
        omega
      · rw [List.foldl_cons, mem, mem_join, List.map_cons, List.mem_cons, or_assoc]

theorem divergences_framed (found : List (Key × Str))
    : (divergences found).keys = framed '\n' (keysOf found)
      ∧ (divergences found).count = found.length
      ∧ Lines (keysOf found)
      ∧ ∀ key, key ∈ keysOf found ↔ key ∈ found.map (fun (key, _) => key.text) := by
  have folded := @foldl_diverge found .none [] nofun rfl
  refine ⟨folded.1, ?_, folded.2.2.1, fun key => ?_⟩
  · rw [divergences, folded.2.1]
    exact Nat.zero_add _
  · rw [keysOf, folded.2.2.2]
    simp

-- The latch file

/-- A latch file is read back as it was written. -/
theorem loadAlerted_framed {known : List Str} (lines : Lines known)
    : loadAlerted (some (framed '\n' known)) = framed '\n' known := by
  have adds (late : List Str)
      : ∀ early, Lines late
          → late.foldl (fun alerted key => if key = [] then alerted else addKey alerted key)
              (framed '\n' early)
            = framed '\n' (early ++ late) := by
    induction late with
    | nil => simp
    | cons key late ih =>
        intro early lines
        rw [List.foldl_cons, if_neg (lines key List.mem_cons_self).1, addKey, framed_append,
          ih _ fun other mem => lines other (List.mem_cons_of_mem _ mem), List.append_assoc]
        rfl
  rw [loadAlerted, records_framed lines.clean, List.foldl_cons, if_pos rfl]
  exact adds known [] lines

/-- What the loop over the keys of a run comes to: the ones that are not known, each once. -/
structure United (known keys : List Str) (result : List Str × Str) : Prop where
  mem : ∀ key, key ∈ result.1 ↔ key ∈ keys ∧ key ≠ [] ∧ key ∉ known
  nodup : result.1.Nodup
  union : result.2 = framed '\n' (known ++ result.1)

/-- One key more is united. -/
theorem United.unite {known keys : List Str} {result : List Str × Str}
    (united : United known keys result)
    (lines : Lines known) (clean : ∀ key ∈ keys, '\n' ∉ key) {key : Str} (absent : '\n' ∉ key)
    : United known (keys ++ [key]) (unite result key) := by
  have framedLines : ∀ key ∈ known ++ result.1, '\n' ∉ key := by
    intro key mem
    rcases List.mem_append.mp mem with mem | mem
    · exact lines.clean key mem
    · exact clean key ((united.mem key).mp mem).1
  have test : framedIn '\n' key result.2 = true ↔ key ∈ known ++ result.1 := by
    rw [united.union]
    exact framedIn_framed framedLines absent
  unfold Canary.unite
  split
  · rename_i skipped
    refine ⟨fun other => ?_, united.nodup, united.union⟩
    rw [united.mem, List.mem_append, List.mem_singleton, or_and_right, iff_self_or]
    rintro ⟨rfl, nonempty, unknown⟩
    have found := test.mp (skipped.resolve_left nonempty)
    have mem := (List.mem_append.mp found).resolve_left unknown
    exact (united.mem other).mp mem
  · rename_i fresh
    rw [not_or, test, List.mem_append, not_or] at fresh
    obtain ⟨nonempty, unknown, unseen⟩ := fresh
    refine ⟨fun other => ?_, ?_, ?_⟩
    · rw [List.mem_append, united.mem, List.mem_singleton, List.mem_append, List.mem_singleton,
        or_and_right]
      refine or_congr_right ⟨?_, And.left⟩
      rintro rfl
      exact ⟨rfl, nonempty, unknown⟩
    · exact united.nodup.append (List.nodup_singleton key) (List.disjoint_singleton.mpr unseen)
    · rw [united.union, addKey, framed_append, List.append_assoc]

theorem newAndUnion_united {known keys : List Str} (lines : Lines known) (keysLines : Lines keys)
    : United known keys (newAndUnion (framed '\n' known) (framed '\n' keys)) := by
  have walks (late : List Str) (lateClean : ∀ key ∈ late, '\n' ∉ key)
      : ∀ early result, (∀ key ∈ early, '\n' ∉ key) → United known early result
          → United known (early ++ late) (late.foldl unite result) := by
    induction late with
    | nil => simp
    | cons key late ih =>
        intro early result clean united
        have absent := lateClean key List.mem_cons_self
        rw [List.foldl_cons, List.append_cons]
        refine ih (fun other mem => lateClean other (List.mem_cons_of_mem _ mem)) _ _ ?_
          (united.unite lines clean absent)
        intro other mem
        rcases List.mem_append.mp mem with mem | mem
        · exact clean other mem
        · exact List.mem_singleton.mp mem ▸ absent
  have hereString : framed '\n' keys ++ ['\n'] = framed '\n' (keys ++ [[]]) := by
    rw [← framed_append, List.append_nil]
  have allClean : ∀ key ∈ [] :: (keys ++ [[]]), '\n' ∉ key := by
    intro key mem
    rw [List.mem_cons, List.mem_append, List.mem_singleton] at mem
    rcases mem with rfl | mem | rfl
    · exact List.not_mem_nil
    · exact keysLines.clean key mem
    · exact List.not_mem_nil
  have start : United known [] ([], framed '\n' known) := ⟨by simp, List.nodup_nil, by simp⟩
  have united := walks _ allClean [] _ nofun start
  rw [newAndUnion, hereString, records_framed fun key mem => allClean key (.tail _ mem)]
  refine ⟨fun key => ?_, united.nodup, united.union⟩
  rw [united.mem]
  simp only [List.nil_append, List.mem_cons, List.mem_append, List.not_mem_nil, or_false]
  constructor
  · rintro ⟨rfl | mem | rfl, nonempty, unknown⟩
    · exact absurd rfl nonempty
    · exact ⟨mem, nonempty, unknown⟩
    · exact absurd rfl nonempty
  · exact fun ⟨mem, rest⟩ => ⟨.inr (.inl mem), rest⟩

-- Runs

/-- What is announced from a run on. -/
def announce (known : List Str) (step : Step) : List Str :=
  if step.clean then [] else known ++ step.announced

/-- The latch file holds what was announced, each key once. -/
structure Latched (files : Files) (known : List Str) : Prop where
  loads : loadAlerted files.alerted = framed '\n' known
  lines : Lines known
  nodup : known.Nodup

/-- What one run does to the latch: it announces the keys that are not known, if the alert goes out.
-/
structure Announces (known : List Str) (step : Step) : Prop where
  attempted
    : step.clean = false → THRESHOLD ≤ step.outcome.streak
      → ∀ key, key ∈ step.attempted ↔ key ∈ step.keys ∧ key ∉ known
  delivered
    : (step.tick.inbox && step.tick.written) = true → step.announced = step.attempted

/-- Nothing is latched at the start. -/
theorem Latched.none : Latched .none [] :=
  ⟨rfl, nofun, List.nodup_nil⟩

/-- The run keeps the latch, and announces what is new. -/
theorem Latched.runs {files : Files} {known : List Str}
    (latched : Latched files known) (tick : Tick)
    : let ran := runTick files tick
      Latched ran.1 (announce known ⟨tick, ran.2⟩) ∧ Announces known ⟨tick, ran.2⟩ := by
  obtain ⟨frames, count, keysLines, mem⟩ := divergences_framed tick.found
  by_cases nothing : tick.found = []
  · have clean : (divergences tick.found).count = 0 := by rw [count, nothing, List.length_nil]
    simp only [runTick, clean, if_pos]
    refine ⟨?_, fun diverges => ?_, fun _ => rfl⟩
    · rw [announce, if_pos (by simp [Step.clean, nothing])]
      exact .none
    · simp [Step.clean, nothing] at diverges
  · have dirty : (divergences tick.found).count ≠ 0 := by
      rw [count, Ne, List.length_eq_zero_iff]
      exact nothing
    have united := newAndUnion_united latched.lines keysLines
    have news (key : Str)
        : key ∈ (newAndUnion (framed '\n' known) (framed '\n' (keysOf tick.found))).1
          ↔ key ∈ tick.found.map (fun (key, _) => key.text) ∧ key ∉ known := by
      rw [united.mem, mem]
      refine ⟨fun ⟨found, _, unknown⟩ => ⟨found, unknown⟩, fun ⟨found, unknown⟩ => ?_⟩
      exact ⟨found, (keysLines key ((mem key).mpr found)).1, unknown⟩
    simp only [runTick, if_neg dirty, latched.loads, frames]
    generalize newAndUnion (framed '\n' known) (framed '\n' (keysOf tick.found))
      = result at united news ⊢
    obtain ⟨newKeys, union⟩ := result
    have notClean (outcome : Outcome) : Step.clean ⟨tick, outcome⟩ = false := by
      simp [Step.clean, nothing]
    have newLines : Lines newKeys := fun key found => keysLines key ((united.mem key).mp found).1
    have kept {outcome : Outcome} (silent : Step.announced ⟨tick, outcome⟩ = [])
        : announce known ⟨tick, outcome⟩ = known := by
      rw [announce, notClean, silent, List.append_nil]
      rfl
    dsimp only
    split
    · split
      · refine ⟨?_, fun _ _ => news, fun _ => rfl⟩
        have nodup : (known ++ newKeys).Nodup :=
          latched.nodup.append united.nodup fun key early late => ((news key).mp late).2 early
        rw [announce, notClean]
        refine ⟨?_, latched.lines.append newLines, nodup⟩
        have written : union = framed '\n' (known ++ newKeys) := united.union
        subst written
        exact loadAlerted_framed (latched.lines.append newLines)
      · rename_i undelivered
        refine ⟨?_, fun _ _ => news, fun available => absurd available undelivered⟩
        rw [kept rfl]
        exact ⟨latched.loads, latched.lines, latched.nodup⟩
    · rename_i silent
      refine ⟨?_, fun _ reached key => ?_, fun _ => rfl⟩
      · rw [kept rfl]
        exact ⟨latched.loads, latched.lines, latched.nodup⟩
      · have empty : newKeys = [] := not_not.mp fun some_ => silent ⟨reached, some_⟩
        refine iff_of_false List.not_mem_nil fun found => ?_
        have unexpected := (news key).mpr found
        rw [empty] at unexpected
        exact absurd unexpected List.not_mem_nil

/-- The first tick, and the others from its files on. -/
theorem steps_cons (files : Files) (tick : Tick) (ticks : List Tick)
    : steps files (tick :: ticks)
      = ⟨tick, (runTick files tick).2⟩ :: steps (runTick files tick).1 ticks :=
  rfl

/-- After any number of runs the latch holds what was announced, by induction on them. -/
theorem Latched.steps {files : Files} {known : List Str} {ticks : List Tick}
    {before after : List Step}
    (latched : Latched files known) (history : steps files ticks = before ++ after)
    : ∃ files ticks,
        Latched files (before.foldl announce known) ∧ Canary.steps files ticks = after := by
  induction before generalizing files known ticks with
  | nil => exact ⟨files, ticks, latched, history⟩
  | cons step before ih =>
      cases ticks with
      | nil => cases history
      | cons tick ticks =>
          rw [steps_cons] at history
          obtain ⟨same, rest⟩ := List.cons.inj history
          subst same
          exact ih (latched.runs tick).1 rest

/-- A last step announces or forgets. -/
theorem announcedSince_append (before : List Step) (step : Step)
    : announcedSince (before ++ [step]) = announce (announcedSince before) step := by
  rw [announcedSince, List.foldl_append]
  rfl

/-- After a run beyond the threshold with the inbox available, all of its keys were announced since
the last clean run; none was announced twice; and a run beyond the threshold announces those of its
keys, or tries to, that no alert has announced yet.
-/
theorem latch_exact {ticks : List Tick} {before after : List Step} {step : Step}
    (history : steps .none ticks = before ++ step :: after) (diverges : step.clean = false)
    : (THRESHOLD ≤ step.outcome.streak → (step.tick.inbox && step.tick.written) = true
        → ∀ key ∈ step.keys, key ∈ announcedSince (before ++ [step]))
      ∧ (announcedSince (before ++ [step])).Nodup
      ∧ (THRESHOLD ≤ step.outcome.streak
        → ∀ key ∈ step.keys, key ∈ step.attempted ↔ key ∉ announcedSince before) := by
  obtain ⟨files, ticks, latched, rest⟩ := Latched.none.steps history
  cases ticks with
  | nil => cases rest
  | cons tick ticks =>
      rw [steps_cons] at rest
      obtain ⟨same, _⟩ := List.cons.inj rest
      subst same
      obtain ⟨kept, announces⟩ := latched.runs tick
      rw [announcedSince_append]
      have attempted := announces.attempted diverges
      refine ⟨fun reached available key found => ?_, kept.nodup, fun reached key found => ?_⟩
      · rw [announce, diverges]
        refine List.mem_append.mpr ?_
        by_cases known : key ∈ announcedSince before
        · exact .inl known
        · right
          rw [announces.delivered available]
          exact (attempted reached key).mpr ⟨found, known⟩
      · rw [attempted reached key]
        exact and_iff_right found

def controllerKey : Key :=
  ⟨"ai.myndaix.controller".toList, by decide, by decide⟩

def runtimeKey : Key :=
  ⟨"ai.myndaix.runtime".toList, by decide, by decide⟩

/-- A divergence while the inbox is away. -/
def missingTick : Tick where
  found := [(controllerKey, "ai.myndaix.controller: STALE".toList)]
  inbox := false
  written := true

/-- The inbox is back, and there is one more divergence. -/
def backTick : Tick where
  found := [
    (controllerKey, "ai.myndaix.controller: STALE".toList),
    (runtimeKey, "ai.myndaix.runtime: daemon NOT LOADED".toList)
  ]
  inbox := true
  written := true

theorem latch_exact_returning
    : let history := steps .none [missingTick, missingTick, backTick]
      announcedSince (history.take 2) = []
      ∧ announcedSince history = [controllerKey.text, runtimeKey.text]
      ∧ (announcedSince history).Nodup := by
  refine ⟨by decide +kernel, by decide +kernel, ?_⟩
  have history
      : steps .none [missingTick, missingTick, backTick]
        = (steps .none [missingTick, missingTick])
          ++ ⟨backTick, (runTick (runTick (runTick .none missingTick).1 missingTick).1 backTick).2⟩
            :: [] :=
    rfl
  have exact_ := latch_exact history rfl
  rw [history]
  exact exact_.2.1

end Canary
