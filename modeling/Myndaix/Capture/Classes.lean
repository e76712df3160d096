import Mathlib.Algebra.Group.Int.Defs
import Mathlib.Data.List.Dedup
import Myndaix.Automerge.RawDiff
import Myndaix.Outcomes.Lines
import Myndaix.Relational.Table
import Myndaix.Transactions.Semantics

/-! The recurrence classes of the auto-capture rung: the tags that name them, the thresholds at
which they become ready, and the two tables that hold them and their sightings.
-/

namespace Capture

open Automerge (lower)
open Outcomes (strip)
open Relational Transactions

abbrev Str :=
  List Char

-- Tags

def RULE_TAG_TAXONOMY : List Str :=
  ["fail-open".toList, "missing-file-lock".toList, "unsanitized-injection".toList,
    "silent-error-suppression".toList, "missing-scoping".toList, "python-in-bash-interp".toList,
    "macos-incompat".toList, "shared-marker-contention".toList, "toctou-race".toList,
    "migration-fail-open".toList, "swiftdata-thread-safety".toList, "swiftui-concurrency".toList]

def RESERVED : List Str :=
  ["con".toList, "prn".toList, "aux".toList, "nul".toList, "com1".toList, "lpt1".toList,
    "skills".toList, "auto".toList, ".".toList]

def tagStart (char : Char) : Bool :=
  ('a' ≤ char && char ≤ 'z') || ('0' ≤ char && char ≤ '9')

/-- `^[a-z0-9][a-z0-9-]{1,60}$`, whose end may also stand before a last line feed. -/
def tagForm (text : Str) : Bool :=
  match if text.getLast? = some '\n' then text.dropLast else text with
  | [] => false
  | first :: rest =>
      tagStart first && 1 ≤ rest.length && rest.length ≤ 60
        && rest.all (fun char => tagStart char || char = '-')

def isAllowedTag (ruleTag : Str) : Bool :=
  let tag := lower (strip ruleTag)
  tagForm tag && RULE_TAG_TAXONOMY.contains tag

/-- The directory and branch segment of a tag. -/
def slug (ruleTag : Str) : Option Str :=
  let tag := lower (strip ruleTag)
  if !tagForm tag then none
  else if RESERVED.contains tag then none
  else if !tag.all (fun char => char.toNat < 0x80) then none
  else some tag

-- Recurrence

/-- The independent signals of a class. -/
structure Counts where
  commits : Nat
  events : Nat
  authors : Nat
deriving DecidableEq, Repr

/-- The thresholds that a recorder reads of its environment. -/
structure Thresholds where
  minRecur : Int
  minEvents : Int
  minAuthors : Int
  reproposeMult : Int
deriving DecidableEq, Repr

def recurrenceReady (counts : Counts) (minRecur minEvents minAuthors : Int) : Bool :=
  minRecur ≤ counts.commits && minEvents ≤ counts.events && minAuthors ≤ counts.authors

def rereadyThreshold (declineCount : Nat) (minRecur mult : Int) : Int :=
  minRecur * mult ^ declineCount

-- Tables

inductive CaptureState : Type where
  | new
  | accumulating
  | ready
  | proposing
  | proposed
  | promoted
  | declined
  | stale
  | error
deriving DecidableEq, Repr

/-- A row of `capture_candidate`. -/
structure Candidate where
  fingerprint : Str
  repoScope : Str
  ruleTag : Str
  pathGlob : Option Str
  state : CaptureState
  branch : Option Str
  draftSha : Option Str
  prNumber : Option Nat
  declineCount : Nat
  proposedAt : Option Nat
deriving DecidableEq, Repr

/-- A row of `capture_occurrence`. -/
structure Occurrence where
  fingerprint : Str
  commitSha : Str
  eventId : Str
  author : Str
  pathGlob : Option Str
deriving DecidableEq, Repr

structure Database where
  candidates : List Candidate
  occurrences : List Occurrence
deriving DecidableEq, Repr

def Database.empty : Database :=
  ⟨[], []⟩

namespace Database

variable (database : Database) (fingerprint : Str)

def candidate? : Option Candidate :=
  lookup Candidate.fingerprint fingerprint database.candidates

def occurrencesOf : List Occurrence :=
  database.occurrences.filter (fun row => row.fingerprint = fingerprint)

/-- The class was seen at this commit. -/
def seen (commitSha : Str) : Bool :=
  (database.occurrencesOf fingerprint).any (fun row => row.commitSha = commitSha)

/-- `count(*)`, `count(DISTINCT event_id)` and `count(DISTINCT author)`. -/
def counts : Counts where
  commits := (database.occurrencesOf fingerprint).length
  events := ((database.occurrencesOf fingerprint).map Occurrence.eventId).dedup.length
  authors := ((database.occurrencesOf fingerprint).map Occurrence.author).dedup.length

/-- The state of the class, if it has a row. -/
def state? : Option CaptureState :=
  (database.candidate? fingerprint).map Candidate.state

end Database

/-- The `SET` clauses of the verbs. -/
inductive Assignment : Type where
  | pathGlob (glob : Option Str)
  | move (state : CaptureState)
  | claim (branch draftSha : Str) (now : Nat)
  | release
  | propose (prNumber now : Nat)
  | resolve (outcome : CaptureState)
deriving DecidableEq, Repr

def Assignment.apply (assignment : Assignment) (row : Candidate) : Candidate :=
  match assignment with
  | .pathGlob glob => { row with pathGlob := glob.or row.pathGlob }
  | .move state => { row with state := state }
  | .claim branch draftSha now =>
      {
        row with
        branch := some branch,
        draftSha := some draftSha,
        state := .proposing,
        proposedAt := some now
      }
  | .release => { row with state := .ready, branch := none, draftSha := none }
  | .propose prNumber now =>
      { row with state := .proposed, prNumber := some prNumber, proposedAt := some now }
  | .resolve outcome =>
      {
        row with
        state := outcome,
        declineCount := row.declineCount + 1,
        branch := none,
        draftSha := none,
        prNumber := none,
        proposedAt := none
      }

/-- The changes that the verbs' statements make. -/
inductive Change : Type where
  | insertCandidate (row : Candidate)
  | insertOccurrence (row : Occurrence)
  | update (fingerprint : Str) (assignment : Assignment)
deriving DecidableEq, Repr

def Change.apply (change : Change) (database : Database) : Database :=
  match change with
  | .insertCandidate row => { database with candidates := database.candidates ++ [row] }
  | .insertOccurrence row => { database with occurrences := database.occurrences ++ [row] }
  | .update fingerprint assignment =>
      {
        database with
        candidates := Relational.update (fun row => row.fingerprint = fingerprint) assignment.apply
          database.candidates
      }

/-- A class's row, and the unique-index entry of a sighting. -/
inductive Key : Type where
  | candidate (fingerprint : Str)
  | occurrence (fingerprint commitSha : Str)
deriving DecidableEq, Repr

def store : Store Database Key Change where
  apply := Change.apply
  present
    | .candidate fingerprint, database => (database.candidate? fingerprint).isSome
    | .occurrence fingerprint commitSha, database => database.seen fingerprint commitSha

/-- The class that a change is about. -/
def Change.fingerprint : Change → Str
  | .insertCandidate row => row.fingerprint
  | .insertOccurrence row => row.fingerprint
  | .update fingerprint _ => fingerprint

section Apply

variable (database : Database)

@[simp] theorem Assignment.apply_fingerprint (assignment : Assignment) (row : Candidate)
    : (assignment.apply row).fingerprint = row.fingerprint := by
  cases assignment <;> rfl

@[simp] theorem candidate?_insertOccurrence (row : Occurrence) (fingerprint : Str)
    : (store.apply (.insertOccurrence row) database).candidate? fingerprint
      = database.candidate? fingerprint :=
  rfl

@[simp] theorem occurrencesOf_insertCandidate (row : Candidate) (fingerprint : Str)
    : (store.apply (.insertCandidate row) database).occurrencesOf fingerprint
      = database.occurrencesOf fingerprint :=
  rfl

@[simp] theorem occurrencesOf_update (updated : Str) (assignment : Assignment) (fingerprint : Str)
    : (store.apply (.update updated assignment) database).occurrencesOf fingerprint
      = database.occurrencesOf fingerprint :=
  rfl

theorem candidate?_insertCandidate (row : Candidate) (fingerprint : Str)
    : (store.apply (.insertCandidate row) database).candidate? fingerprint
      = (database.candidate? fingerprint).or
          (if row.fingerprint = fingerprint then some row else none) :=
  lookup_append row

theorem occurrencesOf_insertOccurrence (row : Occurrence) (fingerprint : Str)
    : (store.apply (.insertOccurrence row) database).occurrencesOf fingerprint
      = database.occurrencesOf fingerprint
        ++ if row.fingerprint = fingerprint then [row] else [] := by
  by_cases own : row.fingerprint = fingerprint
    <;> simp [store, Change.apply, Database.occurrencesOf, own]

theorem candidate?_update (updated : Str) (assignment : Assignment) (fingerprint : Str)
    : (store.apply (.update updated assignment) database).candidate? fingerprint
      = if updated = fingerprint then (database.candidate? fingerprint).map assignment.apply
        else database.candidate? fingerprint := by
  have found := @lookup_update _ _ _ Candidate.fingerprint database.candidates
    (fun row => row.fingerprint = updated) assignment.apply fingerprint assignment.apply_fingerprint
  refine found.trans ?_
  show (database.candidate? fingerprint).map _ = _
  cases row : database.candidate? fingerprint with
  | none => simp
  | some row' =>
      have own : row'.fingerprint = fingerprint := lookup_key row
      by_cases same : updated = fingerprint
      · simp [own, same]
      · simp [own, same, Ne.symm same]

/-- No change removes a row, by induction on the changes. -/
theorem candidate?_view_isSome {database : Database} {changes : List Change} {fingerprint : Str}
    (present : (database.candidate? fingerprint).isSome = true)
    : ((store.view database changes).candidate? fingerprint).isSome = true := by
  induction changes generalizing database with
  | nil => exact present
  | cons change changes ih =>
      refine ih ?_
      cases change with
      | insertCandidate row => simp [candidate?_insertCandidate, Option.isSome_or, present]
      | insertOccurrence row => exact present
      | update updated assignment =>
          rw [candidate?_update]
          split
          · simpa using present
          · exact present

end Apply

/-- A class has the same row and the same sightings. -/
def SameClass (fingerprint : Str) (database later : Database) : Prop :=
  later.candidate? fingerprint = database.candidate? fingerprint
  ∧ later.occurrencesOf fingerprint = database.occurrencesOf fingerprint

section SameClass

variable {fingerprint : Str} {database later third : Database}

theorem SameClass.refl (fingerprint : Str) (database : Database)
    : SameClass fingerprint database database :=
  ⟨rfl, rfl⟩

theorem SameClass.trans (earlier : SameClass fingerprint database later)
    (latest : SameClass fingerprint later third)
    : SameClass fingerprint database third :=
  ⟨latest.1.trans earlier.1, latest.2.trans earlier.2⟩

theorem SameClass.symm (same : SameClass fingerprint database later)
    : SameClass fingerprint later database :=
  ⟨same.1.symm, same.2.symm⟩

theorem SameClass.counts (same : SameClass fingerprint database later)
    : later.counts fingerprint = database.counts fingerprint := by
  rw [Database.counts, Database.counts, same.2]

theorem SameClass.seen (same : SameClass fingerprint database later) (commitSha : Str)
    : later.seen fingerprint commitSha = database.seen fingerprint commitSha := by
  rw [Database.seen, Database.seen, same.2]

theorem SameClass.state? (same : SameClass fingerprint database later)
    : later.state? fingerprint = database.state? fingerprint := by
  rw [Database.state?, Database.state?, same.1]

/-- A change of another class leaves this one. -/
theorem SameClass.apply {change : Change} (other : change.fingerprint ≠ fingerprint)
    : SameClass fingerprint database (store.apply change database) := by
  cases change with
  | insertCandidate row =>
      have other : row.fingerprint ≠ fingerprint := other
      exact ⟨by simp [candidate?_insertCandidate, other], rfl⟩
  | insertOccurrence row =>
      have other : row.fingerprint ≠ fingerprint := other
      exact ⟨rfl, by simp [occurrencesOf_insertOccurrence, other]⟩
  | update updated assignment =>
      have other : updated ≠ fingerprint := other
      exact ⟨by simp [candidate?_update, other], rfl⟩

/-- Changes of other classes leave this one, by induction on them. -/
theorem SameClass.view {changes : List Change}
    (others : ∀ change ∈ changes, change.fingerprint ≠ fingerprint)
    : SameClass fingerprint database (store.view database changes) := by
  induction changes generalizing database with
  | nil => exact SameClass.refl fingerprint database
  | cons change changes ih =>
      exact (SameClass.apply (others change List.mem_cons_self)).trans
        (ih fun next mem => others next (List.mem_cons_of_mem _ mem))

/-- The same changes do the same to a class, whatever else differs. -/
theorem SameClass.congr_apply (same : SameClass fingerprint database later) (change : Change)
    : SameClass fingerprint (store.apply change database) (store.apply change later) := by
  cases change with
  | insertCandidate row =>
      exact ⟨by rw [candidate?_insertCandidate, candidate?_insertCandidate, same.1], same.2⟩
  | insertOccurrence row =>
      refine ⟨same.1, ?_⟩
      rw [occurrencesOf_insertOccurrence, occurrencesOf_insertOccurrence, same.2]
  | update updated assignment =>
      exact ⟨by rw [candidate?_update, candidate?_update, same.1], same.2⟩

theorem SameClass.congr_view (same : SameClass fingerprint database later) (changes : List Change)
    : SameClass fingerprint (store.view database changes) (store.view later changes) := by
  induction changes generalizing database later with
  | nil => exact same
  | cons change changes ih => exact ih (same.congr_apply change)

end SameClass

end Capture
