import Myndaix.Capture.Classes

/-! The verbs of the auto-capture rung: recording a sighting, and the moves of a class through its
proposal. Each verb is one transaction; the moves are single guarded updates.
-/

namespace Capture

open Interaction Transactions

inductive CaptureError : Type where
  | valueError
  | typeError
deriving DecidableEq, Repr

/-- What the verbs take from outside: the hash behind fingerprints, and the order in which an update
without a key meets rows.
-/
structure Config where
  sha256 : Str → Str
  order : List Str → List Str
  order_perm : ∀ fingerprints, (order fingerprints).Perm fingerprints

/-- The key of a class. -/
def Config.fingerprint (config : Config) (repoScope ruleTag : Str) : Str :=
  config.sha256 (repoScope ++ '\x00' :: ruleTag)

abbrev Txn (Answer : Type) : Type :=
  Transaction Database Key Change CaptureError Answer

def look : Txn Database :=
  .call .look .done

def lock (key : Key) : Txn Unit :=
  .call (.lock key) .done

def insert (keys : List Key) (change : Change) : Txn Bool :=
  .call (.insert keys change) .done

def write (change : Change) : Txn Unit :=
  .call (.write change) .done

-- Sightings

/-- The arguments of `record_capture`. -/
structure Sighting where
  repoId : Str
  ruleTag : Str
  pathGlob : Option Str
  commitSha : Str
  eventId : Str
  author : Str
  crossFamily : Bool
  thresholds : Thresholds
deriving DecidableEq, Repr

/-- What `record_capture` returns of a class that it made ready. -/
structure ReadyClass where
  fingerprint : Str
  repoScope : Str
  ruleTag : Str
  pathGlob : Option Str
  declineCount : Nat
  counts : Counts
deriving DecidableEq, Repr

namespace Sighting

variable (sighting : Sighting)

/-- A signal of both families, with a tag of the taxonomy, from outside the corpus. -/
def admissible : Bool :=
  sighting.crossFamily && isAllowedTag sighting.ruleTag && (slug sighting.ruleTag).isSome
    && !(sighting.pathGlob.any (fun glob => "skills/".toList.isPrefixOf glob))

def candidate (fingerprint : Str) : Candidate where
  fingerprint := fingerprint
  repoScope := sighting.repoId
  ruleTag := sighting.ruleTag
  pathGlob := sighting.pathGlob
  state := .new
  branch := none
  draftSha := none
  prNumber := none
  declineCount := 0
  proposedAt := none

def occurrence (fingerprint : Str) : Occurrence where
  fingerprint := fingerprint
  commitSha := sighting.commitSha
  eventId := sighting.eventId
  author := sighting.author
  pathGlob := sighting.pathGlob

/-- The class may become ready and has the signals for it; one that was declined or went stale
needs more commits.
-/
def ready (row : Candidate) (counts : Counts) : Bool :=
  let thresholds := sighting.thresholds
  let effRecur :=
    if row.state = .declined || row.state = .stale then
      rereadyThreshold row.declineCount thresholds.minRecur thresholds.reproposeMult
    else thresholds.minRecur
  [CaptureState.new, .accumulating, .declined, .stale].contains row.state
    && recurrenceReady counts effRecur thresholds.minEvents thresholds.minAuthors

def report (row : Candidate) (counts : Counts) : ReadyClass where
  fingerprint := row.fingerprint
  repoScope := sighting.repoId
  ruleTag := sighting.ruleTag
  pathGlob := row.pathGlob
  declineCount := row.declineCount
  counts := counts

end Sighting

/-- `INSERT INTO capture_candidate ... ON CONFLICT (fingerprint) DO UPDATE`. -/
def upsert (fingerprint : Str) (sighting : Sighting) : Txn Unit := do
  if ← insert [.candidate fingerprint] (.insertCandidate (sighting.candidate fingerprint)) then
    pure ()
  else
    lock (.candidate fingerprint)
    write (.update fingerprint (.pathGlob sighting.pathGlob))

/-- The move of a class that has been counted. -/
def settle (fingerprint : Str) (sighting : Sighting) (counts : Counts) (cand : Candidate)
    : Txn (Option ReadyClass) :=
  if sighting.ready cand counts then do
    write (.update fingerprint (.move .ready))
    pure (some (sighting.report cand counts))
  else if cand.state = .new then do
    write (.update fingerprint (.move .accumulating))
    pure none
  else pure none

def recordCapture (config : Config) (sighting : Sighting) : Txn (Option ReadyClass) :=
  if !sighting.admissible then pure none
  else do
    let fp := config.fingerprint sighting.repoId sighting.ruleTag
    upsert fp sighting
    let _ ← insert [.occurrence fp sighting.commitSha] (.insertOccurrence (sighting.occurrence fp))
    let counted ← look
    let rows ← look
    match rows.candidate? fp with
    | none => raise .typeError
    | some cand => settle fp sighting (counted.counts fp) cand

-- Moves

/-- `UPDATE capture_candidate SET ... WHERE`, for one row of the statement's snapshot: it is locked,
and updated if its latest version meets the condition too.
-/
def updateFrom (snapshot : Database) (fingerprint : Str) (condition : Candidate → Bool)
    (assignment : Assignment)
    : Txn Bool := do
  if (snapshot.candidate? fingerprint).any condition then
    lock (.candidate fingerprint)
    let latest ← look
    if (latest.candidate? fingerprint).any condition then
      write (.update fingerprint assignment)
      pure true
    else pure false
  else pure false

/-- `UPDATE ... WHERE fingerprint = $1 AND ...`. -/
def updateWhere (fingerprint : Str) (condition : Candidate → Bool) (assignment : Assignment)
    : Txn Bool := do
  let snapshot ← look
  updateFrom snapshot fingerprint condition assignment

def claimForProposing (fingerprint branch draftSha : Str) (now : Nat) : Txn Bool :=
  updateWhere fingerprint (fun row => row.state = .ready) (.claim branch draftSha now)

/-- The claim that a verb presents is the one in force. -/
def claimedBy (branch draftSha : Str) (row : Candidate) : Bool :=
  row.state = .proposing && row.branch = some branch && row.draftSha = some draftSha

def markCaptureProposed (fingerprint branch draftSha : Str) (prNumber now : Nat) : Txn Bool :=
  updateWhere fingerprint (claimedBy branch draftSha) (.propose prNumber now)

def releaseProposing (fingerprint branch draftSha : Str) : Txn Bool :=
  updateWhere fingerprint (claimedBy branch draftSha) .release

/-- A claim that is older than the timeout. -/
def stuck (timeoutMinutes : Int) (now : Nat) (row : Candidate) : Bool :=
  row.state = .proposing && row.proposedAt.any (fun (at_ : Nat) => at_ < now - timeoutMinutes * 60)

/-- One row of an update without a key; it returns the row's fingerprint and its old pull request.
-/
def sweepOne (snapshot : Database) (condition : Candidate → Bool) (assignment : Assignment)
    (swept : List (Str × Option Nat)) (fingerprint : Str)
    : Txn (List (Str × Option Nat)) := do
  if (snapshot.candidate? fingerprint).any condition then
    lock (.candidate fingerprint)
    let latest ← look
    if (latest.candidate? fingerprint).any condition then
      write (.update fingerprint assignment)
      pure (swept ++ [(fingerprint, (latest.candidate? fingerprint).bind Candidate.prNumber)])
    else pure swept
  else pure swept

/-- `UPDATE capture_candidate SET ... WHERE condition`. -/
def sweep (config : Config) (condition : Candidate → Bool) (assignment : Assignment)
    : Txn (List (Str × Option Nat)) := do
  let snapshot ← look
  let found := (snapshot.candidates.filter condition).map Candidate.fingerprint
  Program.fold (sweepOne snapshot condition assignment) [] (config.order found)

def reapStuckProposing (config : Config) (timeoutMinutes : Int) (now : Nat) : Txn Nat := do
  let rows ← sweep config (stuck timeoutMinutes now) .release
  pure rows.length

/-- A proposal that is older than its time to live. -/
def overdue (ttlDays : Int) (now : Nat) (row : Candidate) : Bool :=
  row.state = .proposed && row.proposedAt.any (fun (at_ : Nat) => at_ < now - ttlDays * 86400)

def expireStaleCaptures (config : Config) (ttlDays : Int) (now : Nat)
    : Txn (List (Str × Option Nat)) :=
  sweep config (overdue ttlDays now) (.resolve .stale)

def resolveCapture (fingerprint outcome : Str) : Txn Bool :=
  if outcome = "promoted".toList then
    updateWhere fingerprint (fun row => row.state = .proposed) (.move .promoted)
  else if outcome = "declined".toList then
    updateWhere fingerprint (fun row => row.state = .proposed) (.resolve .declined)
  else if outcome = "stale".toList then
    updateWhere fingerprint (fun row => row.state = .proposed) (.resolve .stale)
  else raise .valueError

/-- A verb with its arguments. -/
inductive Verb : Type where
  | recordCapture (sighting : Sighting)
  | claimForProposing (fingerprint branch draftSha : Str) (now : Nat)
  | reapStuckProposing (timeoutMinutes : Int) (now : Nat)
  | markCaptureProposed (fingerprint branch draftSha : Str) (prNumber now : Nat)
  | releaseProposing (fingerprint branch draftSha : Str)
  | resolveCapture (fingerprint outcome : Str)
  | expireStaleCaptures (ttlDays : Int) (now : Nat)
deriving DecidableEq, Repr

inductive Reply : Type where
  | ready (found : Option ReadyClass)
  | won (done : Bool)
  | reaped (count : Nat)
  | expired (rows : List (Str × Option Nat))
deriving DecidableEq, Repr

def code (config : Config) : Verb → Txn Reply
  | .recordCapture sighting => do return .ready (← recordCapture config sighting)
  | .claimForProposing fingerprint branch draftSha now => do
      return .won (← claimForProposing fingerprint branch draftSha now)
  | .reapStuckProposing timeoutMinutes now => do
      return .reaped (← reapStuckProposing config timeoutMinutes now)
  | .markCaptureProposed fingerprint branch draftSha prNumber now => do
      return .won (← markCaptureProposed fingerprint branch draftSha prNumber now)
  | .releaseProposing fingerprint branch draftSha => do
      return .won (← releaseProposing fingerprint branch draftSha)
  | .resolveCapture fingerprint outcome => do
      return .won (← resolveCapture fingerprint outcome)
  | .expireStaleCaptures ttlDays now => do
      return .expired (← expireStaleCaptures config ttlDays now)

/-- The tables and the open transactions of recorders and proposers. -/
abbrev CaptureSystem (Client : Type) : Type :=
  System Database Key Change CaptureError Verb Reply Client

/-- The systems that recorders and proposers reach from empty tables, in any order of their calls
and with crashes anywhere.
-/
def CaptureReachable {Client : Type} [DecidableEq Client] (config : Config)
    : CaptureSystem Client → Prop :=
  Reachable store (code config) unrestricted .empty

end Capture
