import Mathlib.Data.Finset.Insert
import Myndaix.Outcomes.Events

/-! The verbs of the outcomes ledger. Each is one transaction; a call sees the rows that all
earlier calls have left.
-/

namespace Outcomes

open Relational

/-- What the verbs take from outside: SHA-256, the days of the calendar, the text that Python
prints for a string, and the order in which an unordered query meets rows.
-/
structure Host where
  /-- `hashlib.sha256(text.encode()).hexdigest()`. -/
  sha256 : String → String
  /-- `strftime("%Y-%m-%d")` in UTC. -/
  utcday : Time → String
  /-- `now() - make_interval(days => n)`. -/
  daysBefore : Time → Int → Time
  repr : String → String
  scan : List FindingOutcome → List FindingOutcome
  scan_perm : ∀ rows, (scan rows).Perm rows

/-- The whitespace of `str.strip` and of `\s`. -/
def isSpace (char : Char) : Bool :=
  (0x09 ≤ char.toNat && char.toNat ≤ 0x0D) || (0x1C ≤ char.toNat && char.toNat ≤ 0x20)
    || char.toNat = 0x85 || char.toNat = 0xA0 || char.toNat = 0x1680
    || (0x2000 ≤ char.toNat && char.toNat ≤ 0x200A) || char.toNat = 0x2028
    || char.toNat = 0x2029 || char.toNat = 0x202F || char.toNat = 0x205F || char.toNat = 0x3000

/-- `s.strip()`. -/
def strip (text : List Char) : List Char :=
  ((text.dropWhile isSpace).reverse.dropWhile isSpace).reverse

/-- `text[:count]`. -/
def firstChars (count : Nat) (text : String) : String :=
  String.ofList (text.toList.take count)

/-- `outcomes.finding_key`. -/
def findingKey (host : Host) (repoId ruleTag path lineHash : String) : String :=
  host.sha256 ("\x00".intercalate [repoId, ruleTag, path, lineHash])

/-- A finding as a review has raised it. -/
structure OpenFinding where
  tag : String
  path : String
  lineHash : String
  family : Family
deriving DecidableEq, Repr

/-- The arguments of `record_findings`. -/
structure Review where
  repoId : String
  ref : String
  tipSha : String
  play : String
  changedPaths : List String
  openFindings : List OpenFinding
  /-- `present_hashes.get(path)`. -/
  present : String → Option (List String)

inductive Answer : Type where
  | permissionError (text : String)
  | valueError (text : String)
  | error (text : String) (candidates : Finset String)
  | noSuchFinding (findingKey : String)
  | recorded (closed opened skippedDismissed : Nat) (openedRows : List (Finding × OpenFinding))
  | dismissed (rows : Nat) (findingKey : String)
  | written (rows : Nat) (findingKey : String)
  | expired (rows : Nat)

-- record_findings

section RecordFindings

variable (host : Host) (review : Review) (now : Time)

/-- The row that closes the finding of a row. -/
def Review.closing (row : FindingOutcome) : Event where
  repoId := review.repoId
  ref := review.ref
  ruleTag := row.ruleTag
  path := row.path
  lineHash := row.lineHash
  tipSha := review.tipSha
  findingKey := row.findingKey
  family := row.family
  outcome := .appliedFixed
  source := .autoFixLanded
  sourceEvent := "review:" ++ review.play
  createdAt := now
  paired := rfl

/-- The row that opens a finding. -/
def Review.opening (finding : Finding) (raised : OpenFinding) : Event where
  repoId := review.repoId
  ref := review.ref
  ruleTag := raised.tag
  path := raised.path
  lineHash := raised.lineHash
  tipSha := review.tipSha
  findingKey := finding.1
  family := finding.2
  outcome := .open
  source := .reviewRaised
  sourceEvent := "review:" ++ review.play
  createdAt := now
  paired := rfl

/-- The findings that the close step asks about: open, of this repository, on a changed path,
and first raised on this ref.
-/
def closeRows (database : Database) : List FindingOutcome :=
  host.scan ((database.findings.filterMap database.current).filter (fun row =>
    row.repoId = review.repoId && row.outcome = .open && review.changedPaths.contains row.path
      && (database.origin row.finding).any (fun origin => origin.ref = review.ref)))

/-- The line is gone from the file at the tip; where its presence is undetermined it is not. -/
def Review.gone (row : FindingOutcome) : Bool :=
  (review.present row.path).any (fun hashes => !hashes.contains row.lineHash)

/-- `by_key[key] = value`: a key that is there keeps its place. -/
def byKeySet (entries : List (Finding × OpenFinding)) (key : Finding) (value : OpenFinding)
    : List (Finding × OpenFinding) :=
  if entries.any (fun entry => entry.1 = key) then
    entries.map (fun entry => if entry.1 = key then (key, value) else entry)
  else entries ++ [(key, value)]

def Review.byKey : List (Finding × OpenFinding) :=
  review.openFindings.foldl (fun entries raised =>
    byKeySet entries
      (findingKey host review.repoId raised.tag raised.path raised.lineHash, raised.family) raised)
    []

/-- The finding has a human label that stands. -/
def Database.labelled (database : Database) (finding : Finding) : Bool :=
  (database.current finding).any (fun row =>
    row.outcome = .dismissedFalsePositive || row.outcome = .dismissedWontfix
      || row.outcome = .confirmedReal)

/-- What the open step has come to. -/
structure Opened where
  database : Database
  opened : Nat
  skipped : Nat
  openedRows : List (Finding × OpenFinding)

def Review.openFinding (state : Opened) (entry : Finding × OpenFinding) : Opened :=
  if state.database.labelled entry.1 then { state with skipped := state.skipped + 1 }
  else
    let inserted := state.database.insert (review.opening now entry.1 entry.2)
    if inserted.2 then
      { state with
        database := inserted.1,
        opened := state.opened + 1,
        openedRows := state.openedRows ++ [entry] }
    else { state with database := inserted.1 }

/-- The close step. -/
def closeFindings (database : Database) : Database × Nat :=
  database.insertAll
    (((closeRows host review database).filter review.gone).map (review.closing now))

/-- The open step. -/
def openFindings (database : Database) : Opened :=
  (review.byKey host).foldl (review.openFinding now) ⟨database, 0, 0, []⟩

/-- `record_findings`. -/
def recordFindings (database : Database) : Database × Answer :=
  let closed := closeFindings host review now database
  let opened := openFindings host review now closed.1
  (opened.database, .recorded closed.2 opened.opened opened.skipped opened.openedRows)

end RecordFindings

-- Human labels

section Human

variable (host : Host)

/-- `(prefix or "").strip().lower()`, or none if that is not twelve hex digits or more. Of the
characters that are no ASCII letters none becomes a hex digit in lower case.
-/
def hexPrefix (text : String) : Option String :=
  let lowered := (strip text.toList).map Char.toLower
  if 12 ≤ lowered.length
    ∧ lowered.all (fun char => char.isDigit || ('a' ≤ char && char ≤ 'f')) then
    some (String.ofList lowered)
  else none

/-- `SELECT DISTINCT finding_key ... WHERE finding_key LIKE $1 || '%'`. -/
def Database.keysLike (database : Database) (text : String) : List String :=
  ((database.rows.map (fun row => row.findingKey)).filter
    (fun key => text.toList.isPrefixOf key.toList)).dedup

/-- Different families. -/
structure Families where
  all : List Family
  nodup : all.Nodup

/-- The families that `family_or_all` names. -/
def families : String → Option Families
  | "all" => some ⟨[.kilabz, .oracle], by decide⟩
  | "kilabz" => some ⟨[.kilabz], by decide⟩
  | "oracle" => some ⟨[.oracle], by decide⟩
  | _ => none

/-- A label that a person can give. -/
structure HumanLabel where
  kind : String
  source : Source
  outcome : Outcome
  human : source.isHuman = true
  paired : source.pairs outcome = true

/-- `pairs` of `confirm_outcome`. -/
def HumanLabel.ofKind : String → Option HumanLabel
  | "real" => some ⟨"real", .humanConfirm, .confirmedReal, rfl, rfl⟩
  | "fp" => some ⟨"fp", .humanDismiss, .dismissedFalsePositive, rfl, rfl⟩
  | "wontfix" => some ⟨"wontfix", .humanDismiss, .dismissedWontfix, rfl, rfl⟩
  | _ => none

/-- The kinds of `human_dismiss`. -/
def HumanLabel.ofDismissal (kind : String) : Option HumanLabel :=
  if kind = "real" then none else HumanLabel.ofKind kind

/-- The row that labels a finding. -/
def HumanLabel.event (label : HumanLabel) (finding : Finding) (fields : FindingFields) (now : Time)
    : Event where
  toFindingFields := fields
  findingKey := finding.1
  family := finding.2
  outcome := label.outcome
  source := label.source
  sourceEvent := s!"human:{firstChars 12 finding.1}:{label.kind}"
  createdAt := now
  paired := label.paired

/-- Label the finding of each family whose row the guard accepts, and count the rows written. -/
def labelFamilies (label : HumanLabel) (guard : Event → Bool) (key : String) (now : Time)
    : Database → List Family → Database × Nat
  | database, [] => (database, 0)
  | database, family :: rest =>
      match ((database.current (key, family)).map FindingOutcome.toEvent).filter guard with
      | none => labelFamilies label guard key now database rest
      | some row =>
          let inserted :=
            database.insert (label.event (key, family) row.toFindingFields now)
          let last := labelFamilies label guard key now inserted.1 rest
          (last.1, last.2 + inserted.2.toNat)

/-- The prefix, resolved to one finding's key; or the error that is answered. -/
def resolve (database : Database) (text : String) : Except Answer String :=
  match database.keysLike text with
  | [] => .error (.error "no finding matches that prefix" ∅)
  | [key] => .ok key
  | keys => .error (.error "ambiguous prefix — refine it" keys.toFinset)

def humanRoles : List String :=
  ["human", "admin"]

/-- The rows that `human_dismiss` takes a finding's state from. -/
def dismissible (row : Event) : Bool :=
  row.outcome = .open || row.outcome = .dismissedFalsePositive || row.outcome = .dismissedWontfix

/-- `human_dismiss`. -/
def humanDismiss (findingKeyPrefix familyOrAll kind principalRole : String) (now : Time)
    (database : Database)
    : Database × Answer :=
  if humanRoles.contains principalRole then
    match hexPrefix findingKeyPrefix with
    | none => (database, .error "prefix must be >= 12 hex chars" ∅)
    | some text =>
        match HumanLabel.ofDismissal kind with
        | none =>
            (database,
              .valueError s!"human_dismiss: bad kind {host.repr kind} (expected fp|wontfix)")
        | some label =>
            match families familyOrAll with
            | none =>
                (database, .valueError s!"human_dismiss: bad family {host.repr familyOrAll}")
            | some named =>
                match resolve database text with
                | .error answer => (database, answer)
                | .ok key =>
                    let labelled := labelFamilies label dismissible key now database named.all
                    (labelled.1, .dismissed labelled.2 key)
  else
    (database,
      .permissionError s!"human_dismiss is human/admin only, not {host.repr principalRole}")

/-- `confirm_outcome`. -/
def confirmOutcome (findingKeyPrefix familyOrAll kind principalRole : String) (now : Time)
    (database : Database)
    : Database × Answer :=
  if humanRoles.contains principalRole then
    match HumanLabel.ofKind kind with
    | none =>
        (database,
          .valueError s!"confirm_outcome: bad kind {host.repr kind} (expected real|fp|wontfix)")
    | some label =>
        match hexPrefix findingKeyPrefix with
        | none => (database, .error "prefix must be >= 12 hex chars" ∅)
        | some text =>
            match families familyOrAll with
            | none =>
                (database, .valueError s!"confirm_outcome: bad family {host.repr familyOrAll}")
            | some named =>
                match resolve database text with
                | .error answer => (database, answer)
                | .ok key =>
                    let labelled :=
                      labelFamilies label (fun _ => true) key now database named.all
                    (labelled.1, .written labelled.2 key)
  else
    (database,
      .permissionError s!"confirm_outcome is human/admin only, not {host.repr principalRole}")

end Human

-- Machine labels and the sweep

section Machine

variable (host : Host)

/-- The value of `reviewer_family` as the table knows it. -/
def Family.ofText : String → Option Family
  | "kilabz" => some .kilabz
  | "oracle" => some .oracle
  | _ => none

/-- `_finding_fields` of the finding that the arguments name. -/
def findingFields (database : Database) (key reviewerFamily : String)
    : Option (Finding × FindingFields) :=
  (Family.ofText reviewerFamily).bind (fun family =>
    (database.current (key, family)).map (fun row => ((key, family), row.toFindingFields)))

/-- `record_exec_prior`. -/
def recordExecPrior (key reviewerFamily principalRole tipSha : String) (now : Time)
    (database : Database)
    : Database × Answer :=
  if principalRole = "exec_oracle" then
    if 12 ≤ tipSha.toList.length then
      match findingFields database key reviewerFamily with
      | none => (database, .noSuchFinding key)
      | some (finding, fields) =>
          let inserted := database.insert {
            toFindingFields := { fields with tipSha := tipSha },
            findingKey := finding.1,
            family := finding.2,
            outcome := .execRealPrior,
            source := .execVerified,
            sourceEvent := s!"probe:{host.utcday now}:{firstChars 12 tipSha}",
            createdAt := now,
            paired := rfl
          }
          (inserted.1, .written inserted.2.toNat key)
    else (database, .valueError "record_exec_prior: tip_sha must be a full sha")
  else
    (database,
      .permissionError s!"record_exec_prior is exec-oracle only, not {host.repr principalRole}")

/-- A label that the panel proposes. -/
structure Proposal where
  outcome : Outcome
  paired : Source.panelProposed.pairs outcome = true

/-- `outcomes` of `propose_outcome`. -/
def Proposal.ofVerdict : String → Option Proposal
  | "real" => some ⟨.panelReal, rfl⟩
  | "fp" => some ⟨.panelFp, rfl⟩
  | _ => none

/-- `propose_outcome`. -/
def proposeOutcome (key reviewerFamily verdict principalRole play : String) (now : Time)
    (database : Database)
    : Database × Answer :=
  if principalRole = "labeler" then
    match Proposal.ofVerdict verdict with
    | none =>
        (database,
          .valueError s!"propose_outcome: bad verdict {host.repr verdict} (expected real|fp)")
    | some proposal =>
        match findingFields database key reviewerFamily with
        | none => (database, .noSuchFinding key)
        | some (finding, fields) =>
            let inserted := database.insert {
              toFindingFields := fields,
              findingKey := finding.1,
              family := finding.2,
              outcome := proposal.outcome,
              source := .panelProposed,
              sourceEvent := "panel:" ++ play,
              createdAt := now,
              paired := proposal.paired
            }
            (inserted.1, .written inserted.2.toNat key)
  else
    (database,
      .permissionError s!"propose_outcome is labeler only, not {host.repr principalRole}")

/-- The row that expires the finding of a row. -/
def expiry (row : FindingOutcome) (now : Time) : Event where
  toFindingFields := row.toFindingFields
  findingKey := row.findingKey
  family := row.family
  outcome := .expired
  source := .ttlSweep
  sourceEvent := "sweep:" ++ host.utcday now
  createdAt := now
  paired := rfl

/-- The findings of the label queue that were last raised more than `ttlDays` ago. -/
def overdue (ttlDays : Int) (now : Time) (database : Database) : List FindingOutcome :=
  host.scan ((database.findings.filterMap database.labelqueue).filter (fun row =>
    (database.raisedAt row.finding).any (fun raisedAt => raisedAt < host.daysBefore now ttlDays)))

/-- `expire_open`. -/
def expireOpen (ttlDays : Int) (now : Time) (database : Database) : Database × Answer :=
  let inserted :=
    database.insertAll ((overdue host ttlDays now database).map (fun row => expiry host row now))
  (inserted.1, .expired inserted.2)

end Machine

-- Calls

/-- A call of one of the verbs that write, with the time at which it is made. -/
inductive Verb : Type where
  | recordFindings (review : Review) (now : Time)
  | humanDismiss (findingKeyPrefix familyOrAll kind principalRole : String) (now : Time)
  | confirmOutcome (findingKeyPrefix familyOrAll kind principalRole : String) (now : Time)
  | recordExecPrior (key reviewerFamily principalRole tipSha : String) (now : Time)
  | proposeOutcome (key reviewerFamily verdict principalRole play : String) (now : Time)
  | expireOpen (ttlDays : Int) (now : Time)

/-- What a call leaves, and what it answers. -/
def Verb.call (host : Host) (database : Database) : Verb → Database × Answer
  | .recordFindings review now => Outcomes.recordFindings host review now database
  | .humanDismiss findingKeyPrefix familyOrAll kind principalRole now =>
      Outcomes.humanDismiss host findingKeyPrefix familyOrAll kind principalRole now database
  | .confirmOutcome findingKeyPrefix familyOrAll kind principalRole now =>
      Outcomes.confirmOutcome host findingKeyPrefix familyOrAll kind principalRole now database
  | .recordExecPrior key reviewerFamily principalRole tipSha now =>
      Outcomes.recordExecPrior host key reviewerFamily principalRole tipSha now database
  | .proposeOutcome key reviewerFamily verdict principalRole play now =>
      Outcomes.proposeOutcome host key reviewerFamily verdict principalRole play now database
  | .expireOpen ttlDays now => Outcomes.expireOpen host ttlDays now database

/-- What a history of calls leaves. -/
def history (host : Host) : Database → List Verb → Database
  | database, [] => database
  | database, verb :: verbs => history host (verb.call host database).1 verbs

section Sample

/-- The hash of the line `return None`. -/
def Host.sampleHash : String :=
  "9f730a1a70a6144b0dc8da4942d9093cd268d625eafac5188775d0d6b8b25f08"

/-- The hash of the line `pass`. -/
def Host.otherHash : String :=
  "d74ff0ee8da3b9806b18c877dbf29bbde50b5bd8e4dad7a3a725000feb82e8f1"

/-- The key of a `fail-open` finding on `return None` in `src/a.py`. -/
def Host.sampleKey : String :=
  "45d98aa4b86bcab858e45b9e954defdfc06455e3199719d4688bc962d7e85384"

/-- A host that knows these hashes; its calendar has one day. -/
def Host.sample : Host where
  sha256 text :=
    if text = "return None" then Host.sampleHash
    else if text = "pass" then Host.otherHash
    else if text = "repo\x00fail-open\x00src/a.py\x00" ++ Host.sampleHash then Host.sampleKey
    else ""
  utcday _ := "2026-01-01"
  daysBefore now days := now - 86400 * days
  repr text := "'" ++ text ++ "'"
  scan rows := rows
  scan_perm _ := .refl _

end Sample

end Outcomes
