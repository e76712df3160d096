import Myndaix.Capture.Readiness
import Myndaix.Capture.Rendering

/-! The drafts of ready classes: which of them a proposer can render, whatever recorders and
proposers have done before.
-/

namespace Capture

open Automerge (lower)
open Outcomes (strip)
open Transactions

/-- The text that `propose` renders of a ready class with this provenance. -/
def renderReady (isWord : Char → Bool) (row : Candidate) (provenance : List Str) : Option Str := do
  let name ← slug row.ruleTag
  renderSkillMd isWord name row.ruleTag (orElse (row.pathGlob.getD []) "src/**".toList) [] []
    provenance row.repoScope

-- Tags of classes

/-- Every class has a tag of the taxonomy. -/
def TagsAllowed (database : Database) : Prop :=
  ∀ fingerprint row, database.candidate? fingerprint = some row → isAllowedTag row.ruleTag = true

section Tags

variable {config : Config} {database later : Database} {ruleTag fingerprint : Str} {row : Candidate}

/-- An allowed tag has a slug that is its own slug. -/
theorem slug_of_allowed (allowed : isAllowedTag ruleTag = true)
    : slug ruleTag = some (lower (strip ruleTag))
      ∧ slug (lower (strip ruleTag)) = some (lower (strip ruleTag)) := by
  have listed := List.contains_iff_mem.mp (Bool.and_eq_true_iff.mp allowed).2
  have taxonomy
      : ∀ tag ∈ RULE_TAG_TAXONOMY,
          tagForm tag = true
          ∧ tag ∉ RESERVED
          ∧ tag.all (fun char => char.toNat < 0x80) = true
          ∧ slug tag = some tag := by
    unfold RULE_TAG_TAXONOMY RESERVED
    repeat rewrite [String.toList_ofList]
    decide +kernel
  obtain ⟨form, open_, ascii, slugged⟩ := taxonomy _ listed
  refine ⟨?_, slugged⟩
  unfold slug
  simp [form, open_, ascii]

@[simp] theorem Assignment.apply_ruleTag (assignment : Assignment) (row : Candidate)
    : (assignment.apply row).ruleTag = row.ruleTag := by
  cases assignment <;> rfl

theorem Sighting.settled_ruleTag (sighting : Sighting) (row : Candidate) (counts : Counts)
    : (sighting.settled row counts).ruleTag = row.ruleTag := by
  unfold Sighting.settled
  split
  · exact Assignment.apply_ruleTag _ row
  split
  · exact Assignment.apply_ruleTag _ row
  · rfl

/-- A guarded update changes no tag. -/
theorem TagsAllowed.update (allowed : TagsAllowed database) (updated : Str)
    (assignment : Assignment)
    : TagsAllowed (store.apply (.update updated assignment) database) := by
  intro fingerprint row found
  rw [candidate?_update] at found
  split at found
  · obtain ⟨old, was, rfl⟩ := Option.map_eq_some_iff.mp found
    rw [Assignment.apply_ruleTag]
    exact allowed fingerprint old was
  · exact allowed fingerprint row found

theorem TagsAllowed.moved {condition : Candidate → Bool} {assignment : Assignment} {won : Bool}
    (allowed : TagsAllowed database)
    (moved : Moved fingerprint condition assignment won database later)
    : TagsAllowed later := by
  unfold Moved at moved
  split at moved
  · rw [moved.2]
    exact allowed.update fingerprint assignment
  · rw [moved]
    exact allowed

theorem TagsAllowed.swept {condition : Candidate → Bool} {assignment : Assignment}
    (allowed : TagsAllowed database) (swept : Swept condition assignment database later)
    : TagsAllowed later := by
  intro fingerprint row found
  rcases swept fingerprint with same | ⟨-, same⟩
  · rw [same.1] at found
    exact allowed fingerprint row found
  · rw [same.1] at found
    exact allowed.update fingerprint assignment fingerprint row found

theorem TagsAllowed.captured {sighting : Sighting} {found : Option ReadyClass}
    (allowed : TagsAllowed database) (admissible : sighting.admissible = true)
    (captured : Captured fingerprint sighting found database later)
    : TagsAllowed later := by
  intro other row known
  by_cases same : other = fingerprint
  · subst same
    rw [captured.candidate] at known
    obtain rfl := Option.some.inj known
    rw [Sighting.settled_ruleTag]
    unfold Sighting.upserted
    split
    · unfold Sighting.admissible at admissible
      simp only [Bool.and_eq_true] at admissible
      exact admissible.1.1.2
    · rename_i old was
      rw [Assignment.apply_ruleTag]
      exact allowed other old was
  · rw [(captured.others other same).1] at known
    exact allowed other row known

/-- Each verb's commit keeps the tags. -/
theorem TagsAllowed.commits {verb : Verb} {reply : Reply} (allowed : TagsAllowed database)
    (commits : Commits config database later verb reply)
    : TagsAllowed later := by
  cases verb with
  | recordCapture sighting =>
      cases reply with
      | won | reaped | expired => cases commits
      | ready found =>
          rw [Commits] at commits
          split at commits
          · rename_i admissible
            exact allowed.captured admissible commits
          · rw [commits.2]
            exact allowed
  | claimForProposing | markCaptureProposed | releaseProposing =>
      cases reply with
      | ready | reaped | expired => cases commits
      | won => exact allowed.moved commits
  | resolveCapture =>
      cases reply with
      | ready | reaped | expired => cases commits
      | won =>
          obtain ⟨assignment, -, moved⟩ := commits
          exact allowed.moved moved
  | reapStuckProposing =>
      cases reply with
      | ready | won | expired => cases commits
      | reaped => exact allowed.swept commits
  | expireStaleCaptures =>
      cases reply with
      | ready | won | reaped => cases commits
      | expired => exact allowed.swept commits

/-- In every reachable system every class has a tag of the taxonomy. -/
theorem tagsAllowed_of_reachable {Client : Type} [DecidableEq Client]
    {system : CaptureSystem Client} (reachable : CaptureReachable config system)
    : TagsAllowed system.committed := by
  have start : TagsAllowed .empty := by
    intro fingerprint row found
    cases found
  refine (protocol_verified config).preserves Consistent.empty start (fun {_ _ _ _} _ => trivial) ?_
    reachable
  intro verb began reply place _ _ ends allowed
  exact allowed.commits ends.2

end Tags

-- Drafts of ready classes

/-- The longest sum of glob, tag, origin and provenance that leaves a draft within its limit. -/
def DRAFT_ROOM : Nat := 1589

/-- A glob that a class with this provenance can be drafted with. -/
structure UsableGlob (isWord : Char → Bool) (row : Candidate) (provenance : List Str) (glob : Str)
    : Prop where
  narrow : isBannedTrigger glob = false
  printed : glob.any isControl = false
  unquoted : isBannedTrigger (unquote (strip glob)) = false
  short
    : glob.length + row.ruleTag.length + (draftOrigin row.repoScope).length
        + (draftIds provenance).length
      ≤ DRAFT_ROOM
  unframed
    : scanInjection isWord (skillBody row.ruleTag glob [] [] provenance row.repoScope) = none

/-- The class has such a glob. -/
def HasUsableGlob (isWord : Char → Bool) (row : Candidate) (provenance : List Str) : Prop :=
  ∃ glob, row.pathGlob = some glob ∧ UsableGlob isWord row provenance glob

/-- A draft of the class is rendered, and passes the lint under the class's slug. -/
def Renders (isWord : Char → Bool) (row : Candidate) (provenance : List Str) : Prop :=
  ∃ name raw skill,
    slug row.ruleTag = some name
    ∧ renderReady isWord row provenance = some raw
    ∧ lintSkill isWord name raw = .ok skill

section Drafts

variable {isWord : Char → Bool} {row : Candidate} {provenance : List Str}
  {ruleTag glob originRepo : Str}

/-- The words of a draft that no one has described have a fixed length. -/
theorem length_skillBody
    : (skillBody ruleTag glob [] [] provenance originRepo).length
      = 459
        + (glob.length + ruleTag.length + (draftOrigin originRepo).length
          + (draftIds provenance).length) := by
  have texts
      : "\n\nPreferred pattern: ".toList.length = 21
        ∧ "\n\nFlag any change matching `".toList.length = 28
        ∧ "` that repeats this class of issue.\n\n(Auto-proposed from recurring reviewer findings [".toList.length
          = 86
        ∧ "]. Provenance: origin_repo=".toList.length = 27
        ∧ "; finding_ids=".toList.length = 14
        ∧ (orElse (sanitizeField [] 700) NO_DESCRIPTION).length = 25
        ∧ (orElse (sanitizeField [] 700) NO_PATTERN).length = 31
        ∧ (draftEnd (sanitizeField [] 700)).length = 227 := by
    unfold draftEnd stubLine STUB_MARKER NO_DESCRIPTION NO_PATTERN
    rewrite [String.toList_append]
    repeat rewrite [String.toList_ofList]
    decide +kernel
  obtain ⟨preferred, flagged, proposed, origin, ids, problem, pattern, last⟩ := texts
  unfold skillBody draftMiddle
  simp only [List.length_append, preferred, flagged, proposed, origin, ids, problem, pattern, last]
  omega

theorem promotable_iff
    : Promotable isWord ruleTag glob [] [] provenance originRepo
      ↔ isBannedTrigger (unquote (strip glob)) = false
        ∧ glob.length + ruleTag.length + (draftOrigin originRepo).length
            + (draftIds provenance).length
          ≤ DRAFT_ROOM
        ∧ scanInjection isWord (skillBody ruleTag glob [] [] provenance originRepo) = none := by
  have room
      : (skillBody ruleTag glob [] [] provenance originRepo).length ≤ BODY_MAX
        ↔ glob.length + ruleTag.length + (draftOrigin originRepo).length
            + (draftIds provenance).length
          ≤ DRAFT_ROOM := by
    rw [length_skillBody, BODY_MAX, DRAFT_ROOM]
    omega
  rw [← room]
  exact ⟨fun promotable => ⟨promotable.narrow, promotable.short, promotable.unframed⟩,
    fun parts => ⟨parts.1, parts.2.1, parts.2.2⟩⟩

/-- The trigger that stands in for no glob is banned. -/
theorem isBannedTrigger_default : isBannedTrigger "src/**".toList = true := by
  decide +kernel

theorem renders_iff (allowed : isAllowedTag row.ruleTag = true)
    : Renders isWord row provenance ↔ HasUsableGlob isWord row provenance := by
  obtain ⟨named, slugged⟩ := slug_of_allowed allowed
  have rendered (raw : Str)
      : renderReady isWord row provenance = some raw
        ↔ Draftable (lower (strip row.ruleTag)) row.ruleTag
              (orElse (row.pathGlob.getD []) "src/**".toList)
          ∧ Promotable isWord row.ruleTag (orElse (row.pathGlob.getD []) "src/**".toList) [] []
              provenance row.repoScope
          ∧ raw
            = skillMd (lower (strip row.ruleTag)) row.ruleTag
                (orElse (row.pathGlob.getD []) "src/**".toList) [] [] provenance
                row.repoScope := by
    rw [renderReady, named]
    exact renderSkillMd_eq_some
  constructor
  · intro renders
    obtain ⟨-, raw, -, -, drafted, -⟩ := renders
    obtain ⟨draftable, promotable, -⟩ := (rendered raw).mp drafted
    -- The default is banned, so the trigger is the class's own glob.
    have own : row.pathGlob = some (orElse (row.pathGlob.getD []) "src/**".toList) := by
      unfold orElse
      split
      · rename_i empty
        have narrow := draftable.narrow
        rw [orElse, if_pos empty, isBannedTrigger_default] at narrow
        cases narrow
      · rename_i filled
        cases given : row.pathGlob with
        | none =>
            rw [given] at filled
            exact absurd rfl filled
        | some glob => rfl
    obtain ⟨unquoted, short, unframed⟩ := promotable_iff.mp promotable
    exact ⟨_, own, draftable.narrow, draftable.printed, unquoted, short, unframed⟩
  · intro usable
    obtain ⟨glob, given, usable⟩ := usable
    have trigger : orElse (row.pathGlob.getD []) "src/**".toList = glob := by
      rw [given, Option.getD_some, orElse, if_neg]
      intro empty
      have narrow := usable.narrow
      rw [List.isEmpty_iff.mp empty] at narrow
      cases narrow
    have promotable := promotable_iff.mpr ⟨usable.unquoted, usable.short, usable.unframed⟩
    have draftable : Draftable (lower (strip row.ruleTag)) row.ruleTag glob :=
      ⟨slugged, allowed, usable.narrow, usable.printed⟩
    simp only [trigger] at rendered
    have drafted := (rendered _).mpr ⟨draftable, promotable, rfl⟩
    have linted :=
      (lintSkill_skillMd (isSlug_of_slug slugged) usable.printed).mpr ⟨promotable, rfl⟩
    exact ⟨_, _, _, named, drafted, linted⟩

end Drafts

section Runs

variable {Client : Type} [DecidableEq Client]

/-- Whatever recorders and proposers have done, a class, ready or not, is drafted exactly if it has
a glob that a draft of it can carry.
-/
theorem class_renders_iff (config : Config) (isWord : Char → Bool) (system : CaptureSystem Client)
    (reachable : CaptureReachable config system) (fingerprint : Str) (row : Candidate)
    (found : system.committed.candidate? fingerprint = some row) (provenance : List Str)
    : Renders isWord row provenance ↔ HasUsableGlob isWord row provenance :=
  renders_iff (tagsAllowed_of_reachable reachable fingerprint row found)

end Runs

section Sample

/-- A first sighting, under thresholds of one, of a change without a usable path. -/
def globlessSighting : Sighting :=
  { sampleSighting with pathGlob := none }

/-- What is left when a recorder has committed its only sighting. -/
def recordedOnce (sighting : Sighting) : Option (CaptureSystem Bool) := do
  let begun ← System.begin (code .sample) (.quiet .empty) false (.recordCapture sighting)
  let counted ← begun.play store [false, true] (List.replicate 5 false)
  let done ← counted.commit store false
  return done.2.2

theorem recordedOnce_reachable {sighting : Sighting} {system : CaptureSystem Bool}
    (recorded : recordedOnce sighting = some system)
    : CaptureReachable .sample system := by
  unfold recordedOnce at recorded
  obtain ⟨begun, begins, recorded⟩ := Option.bind_eq_some_iff.mp recorded
  obtain ⟨counted, played, recorded⟩ := Option.bind_eq_some_iff.mp recorded
  obtain ⟨⟨verb, reply, next⟩, commits, same⟩ := Option.bind_eq_some_iff.mp recorded
  obtain rfl := Option.some.inj same
  have before : CaptureReachable .sample counted :=
    Reachable.play (by decide) (fun {_ _ _} => trivial)
      (Reachable.start.step (System.begin_sound begins) trivial) played
  exact before.step (System.commit_sound commits) trivial

/-- The system after a sighting, and the row of its class. -/
theorem recordedOnce_ready (sighting : Sighting) (row : Candidate)
    (facts
      : ((recordedOnce sighting).bind fun system => system.committed.candidate? Config.sampleDigest)
        = some row)
    : ∃ system : CaptureSystem Bool,
        CaptureReachable .sample system
        ∧ system.committed.candidate? Config.sampleDigest = some row := by
  obtain ⟨system, recorded, found⟩ := Option.bind_eq_some_iff.mp facts
  exact ⟨system, recordedOnce_reachable recorded, found⟩

/-- The row of a class that one sighting has made ready. -/
def readyRow (sighting : Sighting) : Candidate :=
  { sighting.candidate Config.sampleDigest with state := .ready }

theorem class_renders_iff_sample
    : ∃ system : CaptureSystem Bool,
        CaptureReachable .sample system
        ∧ system.committed.candidate? Config.sampleDigest = some (readyRow sampleSighting)
        ∧ (Renders isAsciiWord (readyRow sampleSighting) []
          ↔ HasUsableGlob isAsciiWord (readyRow sampleSighting) []) := by
  obtain ⟨system, reachable, found⟩ :=
    recordedOnce_ready sampleSighting (readyRow sampleSighting) (by decide +kernel)
  exact ⟨system, reachable, found, class_renders_iff .sample isAsciiWord system reachable
    Config.sampleDigest (readyRow sampleSighting) found []⟩

/-- A ready class without a glob is never drafted. -/
theorem globless_class_undrafted
    : ∃ (system : CaptureSystem Bool) (row : Candidate),
        CaptureReachable .sample system
        ∧ system.committed.candidate? Config.sampleDigest = some row
        ∧ row.state = .ready
        ∧ ∀ provenance, ¬ Renders isAsciiWord row provenance := by
  obtain ⟨system, reachable, found⟩ :=
    recordedOnce_ready globlessSighting (readyRow globlessSighting) (by decide +kernel)
  refine ⟨system, readyRow globlessSighting, reachable, found, rfl, fun provenance renders => ?_⟩
  obtain ⟨glob, given, -⟩ := (renders_iff (by decide)).mp renders
  cases given

end Sample

end Capture
