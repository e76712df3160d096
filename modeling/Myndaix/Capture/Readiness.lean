import Myndaix.Capture.Contracts
import Myndaix.Transactions.Schedule

/-! When a recorder makes a class ready: on enough distinct signals, reported once, and never while
the class is at its proposal.
-/

namespace Capture

open Transactions

/-- The distinct commits, events and authors of a class's sightings. -/
def Database.signals (database : Database) (fingerprint : Str) : Counts where
  commits := ((database.occurrencesOf fingerprint).map Occurrence.commitSha).dedup.length
  events := ((database.occurrencesOf fingerprint).map Occurrence.eventId).dedup.length
  authors := ((database.occurrencesOf fingerprint).map Occurrence.author).dedup.length

/-- The recurrence rule; a class that was declined or went stale needs the multiple of the commits.
-/
structure Recurs (thresholds : Thresholds) (row : Option Candidate) (signals : Counts) : Prop where
  commits
    : thresholds.minRecur
        * (match row with
          | some row =>
              if row.state = .declined ∨ row.state = .stale then
                thresholds.reproposeMult ^ row.declineCount
              else 1
          | none => 1)
      ≤ signals.commits
  events : thresholds.minEvents ≤ signals.events
  authors : thresholds.minAuthors ≤ signals.authors

/-- The class was not ready and is. -/
def BecomesReady (fingerprint : Str) (before after : Database) : Prop :=
  before.state? fingerprint ≠ some .ready ∧ after.state? fingerprint = some .ready

/-- What a recorder's commit does to every class. -/
structure Readies (config : Config) (sighting : Sighting) (found : Option ReadyClass)
    (before after : Database)
    : Prop where
  onRule
    : ∀ fingerprint,
        BecomesReady fingerprint before after
        → (∀ state,
            before.state? fingerprint = some state
            → state ∈ [CaptureState.new, .accumulating, .declined, .stale])
          ∧ Recurs sighting.thresholds (before.candidate? fingerprint) (after.signals fingerprint)
  reported
    : ∀ fingerprint,
        BecomesReady fingerprint before after
        ↔ ∃ report, found = some report ∧ report.fingerprint = fingerprint
  repeated
    : before.seen (config.fingerprint sighting.repoId sighting.ruleTag) sighting.commitSha = true
      → ∀ fingerprint, after.signals fingerprint = before.signals fingerprint
  kept
    : ∀ fingerprint state,
        before.state? fingerprint = some state
        → state ∈ [CaptureState.proposing, .proposed, .promoted]
        → after.state? fingerprint = some state

section Commits

variable {config : Config} {before after : Database} {fingerprint : Str} {sighting : Sighting}
  {found : Option ReadyClass}

/-- With its primary key a class's sightings are counted by their commits. -/
theorem signals_eq (consistent : Consistent before) (fingerprint : Str)
    : before.signals fingerprint = before.counts fingerprint := by
  have commits := consistent.commits_nodup fingerprint
  rw [Database.signals, Database.counts, List.Nodup.dedup commits, List.length_map]

theorem SameClass.signals (same : SameClass fingerprint before after)
    : after.signals fingerprint = before.signals fingerprint := by
  rw [Database.signals, Database.signals, same.2]

theorem SameClass.not_becomesReady (same : SameClass fingerprint before after)
    : ¬BecomesReady fingerprint before after := by
  rintro ⟨was, is⟩
  exact was (same.state? ▸ is)

theorem Sighting.upserted_state (sighting : Sighting) (fingerprint : Str) (database : Database)
    : (sighting.upserted fingerprint database).state
      = (database.state? fingerprint).getD .new := by
  rw [Sighting.upserted, Database.state?]
  cases database.candidate? fingerprint with
  | none => rfl
  | some row => rfl

theorem Sighting.upserted_declineCount (sighting : Sighting) (fingerprint : Str)
    (database : Database)
    : (sighting.upserted fingerprint database).declineCount
      = ((database.candidate? fingerprint).map Candidate.declineCount).getD 0 := by
  rw [Sighting.upserted]
  cases database.candidate? fingerprint with
  | none => rfl
  | some row => rfl

theorem Sighting.upserted_fingerprint (sighting : Sighting) (fingerprint : Str)
    (database : Database)
    : (sighting.upserted fingerprint database).fingerprint = fingerprint := by
  rw [Sighting.upserted]
  cases found : database.candidate? fingerprint with
  | none => rfl
  | some row =>
      have own : row.fingerprint = fingerprint := Relational.lookup_key found
      exact own

/-- The code's test is the rule. -/
theorem recurs_of_ready {counts : Counts}
    (ready : sighting.ready (sighting.upserted fingerprint before) counts = true)
    : (sighting.upserted fingerprint before).state ∈
      [CaptureState.new, .accumulating, .declined, .stale]
      ∧ Recurs sighting.thresholds (before.candidate? fingerprint) counts := by
  simp only [Sighting.ready, Bool.and_eq_true, recurrenceReady, decide_eq_true_eq,
    List.contains_iff_mem] at ready
  obtain ⟨state, ⟨commits, events⟩, authors⟩ := ready
  refine ⟨state, ?_, events, authors⟩
  simp only [Sighting.upserted_state, Sighting.upserted_declineCount, Database.state?,
    rereadyThreshold, Bool.or_eq_true, decide_eq_true_eq] at commits
  cases row : before.candidate? fingerprint with
  | none => simpa [row] using commits
  | some row' =>
      simp only [row, Option.map_some, Option.getD_some] at commits ⊢
      split at commits
      · rename_i again
        rwa [if_pos again]
      · rename_i first
        rwa [if_neg first, Int.mul_one]

/-- A settled class is ready if it was found so or was ready before. -/
theorem Captured.state? (captured : Captured fingerprint sighting found before after)
    : after.state? fingerprint
      = some
          (if sighting.ready (sighting.upserted fingerprint before) (after.counts fingerprint) then
            .ready
          else if (before.state? fingerprint).getD .new = .new then .accumulating
          else (before.state? fingerprint).getD .new) := by
  rw [Database.state?, captured.candidate, Option.map_some, Sighting.settled]
  split
  · rfl
  · rw [Sighting.upserted_state]
    split
    · rfl
    · rw [Sighting.upserted_state]

/-- A recorder's commit readies its class on the rule, and reports that. -/
theorem Captured.readies {sighting : Sighting}
    (captured
      : Captured (config.fingerprint sighting.repoId sighting.ruleTag) sighting found before after)
    (consistent : Consistent after)
    : Readies config sighting found before after := by
  generalize named : config.fingerprint sighting.repoId sighting.ruleTag = own at captured
  have state := captured.state?
  have becomes
      : BecomesReady own before after
        ↔ sighting.ready (sighting.upserted own before) (after.counts own) = true := by
    rw [BecomesReady, state]
    constructor
    · intro ⟨was, is⟩
      by_contra notReady
      rw [if_neg notReady] at is
      split at is
      · cases is
      · rename_i old
        cases known : before.state? own with
        | none => exact old (by rw [known]; rfl)
        | some state =>
            rw [known] at is was
            exact was is
    · intro ready
      refine ⟨fun was => ?_, by rw [if_pos ready]⟩
      have open_ := (recurs_of_ready ready).1
      rw [Sighting.upserted_state, was] at open_
      exact absurd open_ (by decide)
  refine ⟨fun fingerprint now => ?_, fun fingerprint => ?_, fun seen fingerprint => ?_,
    fun fingerprint before_ was proposal => ?_⟩
  · by_cases same : fingerprint = own
    · subst same
      obtain ⟨open_, recurs⟩ := recurs_of_ready (becomes.mp now)
      rw [signals_eq consistent]
      refine ⟨fun state was => ?_, recurs⟩
      rwa [Sighting.upserted_state, was] at open_
    · exact absurd now (captured.others fingerprint same).not_becomesReady
  · rw [captured.found]
    by_cases same : fingerprint = own
    · subst same
      rw [becomes]
      constructor
      · intro ready
        exact ⟨_, if_pos ready, sighting.upserted_fingerprint fingerprint before⟩
      · intro ⟨report, found, _⟩
        by_contra notReady
        rw [if_neg notReady] at found
        cases found
    · refine iff_of_false (captured.others fingerprint same).not_becomesReady ?_
      intro ⟨report, found, ofClass⟩
      split at found
      · refine same (ofClass.symm.trans ?_)
        rw [← Option.some.inj found]
        exact sighting.upserted_fingerprint own before
      · cases found
  · by_cases same : fingerprint = own
    · subst same
      have rows := captured.occurrences
      rw [← named, if_pos seen, List.append_nil, named] at rows
      rw [Database.signals, Database.signals, rows]
    · exact (captured.others fingerprint same).signals
  · by_cases same : fingerprint = own
    · subst same
      have closed : sighting.ready (sighting.upserted fingerprint before)
        (after.counts fingerprint) ≠ true := by
        intro ready
        have open_ := (recurs_of_ready ready).1
        rw [Sighting.upserted_state, was, Option.getD_some] at open_
        revert open_ proposal
        cases before_ <;> decide
      rw [state, if_neg closed, was, Option.getD_some, if_neg]
      rintro rfl
      revert proposal
      decide
    · rw [(captured.others fingerprint same).state?, was]

/-- A sighting that is not recorded readies nothing. -/
theorem readies_refl (config : Config) (sighting : Sighting) (database : Database)
    : Readies config sighting none database database where
  onRule fingerprint now := absurd now (SameClass.refl fingerprint database).not_becomesReady
  reported fingerprint :=
    iff_of_false (SameClass.refl fingerprint database).not_becomesReady (by simp)
  repeated _ _ := rfl
  kept _ _ was _ := was

end Commits

section Runs

variable {Client : Type} [DecidableEq Client] {config : Config}
  {system next : CaptureSystem Client} {client : Client} {verb : Verb} {reply : Reply}

theorem capture_sound (reachable : CaptureReachable config system)
    : (protocol config).Sound system :=
  (protocol_verified config).sound Consistent.empty reachable

/-- What a commit step did, as the protocol has it. -/
theorem commits_of_step (reachable : CaptureReachable config system)
    (step : Step store (code config) system client (.committed verb reply) next)
    : Commits config system.committed next.committed verb reply := by
  cases step with
  | committed open_ finished =>
      exact ((capture_sound reachable).finished open_ finished).2

/-- **Capture readiness.** Whatever recorders and proposers do and wherever they crash, a class has
one sighting for each commit, and each call of `record_capture` readies a class on the recurrence
rule only, reports exactly the class that it readied, changes no count if it repeats a sighting, and
leaves classes alone that are at their proposal or through it.
-/
theorem capture_readiness (reachable : CaptureReachable config system)
    (step : Step store (code config) system client (.committed verb reply) next)
    : (∀ fingerprint,
        ((next.committed.occurrencesOf fingerprint).map Occurrence.commitSha).Nodup)
      ∧ ∀ sighting,
          verb = .recordCapture sighting
          → ∃ found,
              reply = .ready found
                ∧ Readies config sighting found system.committed next.committed := by
  have later := (capture_sound (reachable.step step trivial)).invariant
  refine ⟨fun fingerprint => later.commits_nodup fingerprint, ?_⟩
  rintro sighting rfl
  have commits := commits_of_step reachable step
  cases reply with
  | won | reaped | expired => cases commits
  | ready found =>
      refine ⟨found, rfl, ?_⟩
      rw [Commits] at commits
      split at commits
      · exact commits.readies later
      · obtain ⟨rfl, same⟩ := commits
        rw [same]
        exact readies_refl config sighting system.committed

end Runs

section Sample

/-- The digest of `myndaix-runtime` and `fail-open`. -/
def Config.sampleDigest : Str :=
  "89bb078801f37b0cc49587852407995865f5302a1bfbadc7b9d21f646dde164c".toList

def Config.sample : Config where
  sha256 _ := Config.sampleDigest
  order fingerprints := fingerprints
  order_perm _ := .refl _

/-- A first sighting under thresholds of one. -/
def sampleSighting : Sighting where
  repoId := "myndaix-runtime".toList
  ruleTag := "fail-open".toList
  pathGlob := some "src/*.py".toList
  commitSha := "0123abcd".toList
  eventId := "run-1".toList
  author := "ada".toList
  crossFamily := true
  thresholds := ⟨1, 1, 1, 2⟩

/-- The recorder's transaction up to its last call. -/
def sampleCounted : Option (CaptureSystem Bool) := do
  let system ← System.begin (code .sample) (.quiet .empty) false (.recordCapture sampleSighting)
  system.play store [false, true] (List.replicate 5 false)

theorem sampleCounted_reachable {system : CaptureSystem Bool}
    (counted : sampleCounted = some system)
    : CaptureReachable .sample system := by
  unfold sampleCounted at counted
  obtain ⟨begun, begins, played⟩ := Option.bind_eq_some_iff.mp counted
  exact Reachable.play (by decide) (fun {_ _ _} => trivial)
    (Reachable.start.step (System.begin_sound begins) trivial) played

/-- The first sighting makes its class ready and reports it. -/
theorem sample_capture_readiness
    : ∃ system verb reply next report,
        sampleCounted = some system
        ∧ system.commit store false = some (verb, reply, next)
        ∧ BecomesReady Config.sampleDigest system.committed next.committed
        ∧ reply = .ready (some report)
        ∧ report.fingerprint = Config.sampleDigest := by
  have facts
      : (sampleCounted.bind fun system =>
          (system.commit store false).map fun done =>
            done.1 = .recordCapture sampleSighting
            && system.committed.state? Config.sampleDigest ≠ some .ready
            && done.2.2.committed.state? Config.sampleDigest = some .ready)
        = some true := by
    decide +kernel
  obtain ⟨system, counted, committed⟩ := Option.bind_eq_some_iff.mp facts
  obtain ⟨⟨verb, reply, next⟩, commits, holds⟩ := Option.map_eq_some_iff.mp committed
  simp only [Bool.and_eq_true, decide_eq_true_eq] at holds
  obtain ⟨⟨rfl, was⟩, is⟩ := holds
  obtain ⟨found, rfl, readies⟩ :=
    (capture_readiness (sampleCounted_reachable counted) (System.commit_sound commits)).2
      sampleSighting rfl
  obtain ⟨report, rfl, own⟩ := (readies.reported Config.sampleDigest).mp ⟨was, is⟩
  exact ⟨system, _, _, next, report, counted, commits, ⟨was, is⟩, rfl, own⟩

end Sample

end Capture
