import Mathlib.Data.List.Dedup
import Myndaix.Relational.Latest

/-! The outcomes ledger: an append-only table of what happened to the findings of each reviewer
family, and the views that are computed from it.
-/

namespace Outcomes

open Relational

abbrev Time : Type :=
  Int

inductive Family : Type where
  | kilabz
  | oracle
deriving DecidableEq, Repr

inductive Outcome : Type where
  | «open»
  | appliedFixed
  | dismissedFalsePositive
  | dismissedWontfix
  | reverted
  | expired
  | confirmedReal
  | execRealPrior
  | panelReal
  | panelFp
deriving DecidableEq, Repr

inductive Source : Type where
  | reviewRaised
  | autoFixLanded
  | autoGitRevert
  | humanDismiss
  | ttlSweep
  | panelProposed
  | execVerified
  | humanConfirm
deriving DecidableEq, Repr

/-- The table's CHECK on a source and its outcome. -/
def Source.pairs : Source → Outcome → Bool
  | .reviewRaised, .open => true
  | .autoFixLanded, .appliedFixed => true
  | .autoGitRevert, .reverted => true
  | .humanDismiss, .dismissedFalsePositive | .humanDismiss, .dismissedWontfix => true
  | .ttlSweep, .expired => true
  | .humanConfirm, .confirmedReal => true
  | .execVerified, .execRealPrior => true
  | .panelProposed, .panelReal | .panelProposed, .panelFp => true
  | _, _ => false

theorem Source.pairs_ttlSweep : Source.ttlSweep.pairs .expired = true :=
  rfl

theorem Source.pairs_humanConfirm : Source.humanConfirm.pairs .confirmedReal = true :=
  rfl

theorem Source.pairs_humanDismiss : Source.humanDismiss.pairs .dismissedFalsePositive = true :=
  rfl

def Source.isHuman : Source → Bool
  | .humanConfirm | .humanDismiss => true
  | _ => false

/-- The sources that open a finding and expire it. -/
def Source.isToggle : Source → Bool
  | .reviewRaised | .ttlSweep => true
  | _ => false

/-- The sources of labels that machines give. -/
def Source.isMachineLabel (source : Source) : Bool :=
  !source.isHuman && !source.isToggle

/-- The columns that a new row of a finding takes over from an earlier one. -/
structure FindingFields where
  repoId : String
  ref : String
  ruleTag : String
  path : String
  lineHash : String
  tipSha : String
deriving DecidableEq, Repr

/-- A row of `finding_outcome` but for its place in the order; `id`, which nothing reads, is left
out.
-/
structure Event extends FindingFields where
  findingKey : String
  family : Family
  outcome : Outcome
  source : Source
  sourceEvent : String
  createdAt : Time
  paired : source.pairs outcome = true
deriving DecidableEq, Repr

/-- A finding of one reviewer family. -/
abbrev Finding : Type :=
  String × Family

def Event.finding (event : Event) : Finding :=
  (event.findingKey, event.family)

/-- The columns of the unique index. -/
def Event.identity (event : Event) : String × Family × Outcome × Source × String :=
  (event.findingKey, event.family, event.outcome, event.source, event.sourceEvent)

/-- A row of `finding_outcome`. -/
structure FindingOutcome extends Event where
  seq : Nat
deriving DecidableEq, Repr

/-- The table and the next value of the sequence behind `seq`. -/
structure Database where
  rows : List FindingOutcome
  nextSeq : Nat

def Database.empty : Database :=
  ⟨[], 1⟩

namespace Database

variable (database : Database)

/-- `INSERT ... ON CONFLICT DO NOTHING RETURNING id`: whether a row was inserted. The sequence
moves on in either case.
-/
def insert (event : Event) : Database × Bool :=
  if database.rows.any (fun row => row.identity = event.identity) then
    (⟨database.rows, database.nextSeq + 1⟩, false)
  else (⟨database.rows ++ [⟨event, database.nextSeq⟩], database.nextSeq + 1⟩, true)

/-- Insert events one after the other, and count the rows that were inserted. -/
def insertAll : Database → List Event → Database × Nat
  | database, [] => (database, 0)
  | database, event :: events =>
      let inserted := database.insert event
      let rest := insertAll inserted.1 events
      (rest.1, rest.2 + inserted.2.toNat)

def rowsOf (finding : Finding) : List FindingOutcome :=
  database.rows.filter (fun row => row.finding = finding)

/-- `SELECT DISTINCT finding_key, reviewer_family`. -/
def findings : List Finding :=
  (database.rows.map (fun row => row.finding)).dedup

/-- `finding_current`: the newest human row of a finding, or else its newest row. -/
def current (finding : Finding) : Option FindingOutcome :=
  first (newerAmong (fun row => row.source.isHuman) FindingOutcome.seq) (database.rowsOf finding)

/-- `finding_current_human`. -/
def currentHuman (finding : Finding) : Option FindingOutcome :=
  first (newer FindingOutcome.seq)
    ((database.rowsOf finding).filter (fun row => row.source.isHuman))

/-- The newest row that opens or expires the finding. -/
def toggle (finding : Finding) : Option FindingOutcome :=
  first (newer FindingOutcome.seq)
    ((database.rowsOf finding).filter (fun row => row.source.isToggle))

/-- `finding_labelqueue`: the newest row of a finding without a human label that is not expired. -/
def labelqueue (finding : Finding) : Option FindingOutcome :=
  if (database.rowsOf finding).any (fun row => row.source.isHuman) then none
  else if (database.toggle finding).map (fun row => row.outcome) = some .expired then none
  else first (newer FindingOutcome.seq) (database.rowsOf finding)

/-- The row that first opened the finding. -/
def origin (finding : Finding) : Option FindingOutcome :=
  first (older FindingOutcome.seq)
    ((database.rowsOf finding).filter (fun row => row.outcome = .open))

/-- When a review last raised the finding. -/
def raisedAt (finding : Finding) : Option Time :=
  (((database.rowsOf finding).filter (fun row => row.source = .reviewRaised)).map
    (fun row => row.createdAt)).max?

end Database

end Outcomes
