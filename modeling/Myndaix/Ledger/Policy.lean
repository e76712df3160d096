import Myndaix.Ledger.Statements

/-! The policy constants of the ledger and what it takes from outside: the agent registry, the
database's collation and the row orders that the query planner is free to choose.
-/

namespace Ledger

def leaseSeconds : Time := 120

def heartbeatSeconds : Time := 120

def reclaimBatch : Nat := 100

def outboundMaxTries : Nat := 5

def maxChildren : Nat := 32

def maxDepth : Nat := 8

/-- The poison ceiling. -/
def maxAttempts : Nat := 3

inductive Authority : Type where
  | responder
  | workspaceActor
  | controller
  | composite
deriving DecidableEq, Repr

/-- The parts of an agent's spec that retry safety reads. -/
structure AgentSpec where
  authority : Authority
  nonIdempotent : Bool
deriving DecidableEq, Repr

/-- The order that SQL's `ORDER BY` puts on text. -/
structure Collation where
  le : String → String → Bool
  total : ∀ first second, le first second || le second first
  trans : ∀ {first second third}, le first second → le second third → le first third
  antisymm : ∀ {first second}, le first second → le second first → first = second

/-- The order of code points, as in Python's `sorted` and in the collation `C`. -/
def Collation.codePoints : Collation where
  le first second := first ≤ second
  total first second := by simpa using String.le_total first second
  trans earlier later := by
    simpa using String.le_trans (by simpa using earlier) (by simpa using later)
  antisymm le ge := String.le_antisymm (by simpa using le) (by simpa using ge)

structure Config where
  maxPerRepo : Nat
  registry : String → Option AgentSpec
  collation : Collation
  /-- The order in which an unordered query meets attempts joined with their jobs. -/
  scan : List (Attempt × Job) → List (Attempt × Job)
  scan_perm : ∀ rows, (scan rows).Perm rows
  /-- The order in which an unordered query meets repositories. -/
  groups : List String → List String
  groups_perm : ∀ repos, (groups repos).Perm repos

/-- Authority decides whether a job may run twice, and an unknown agent fails closed. -/
def Config.requeueSafe (config : Config) (toAgent : String) : Bool :=
  match config.registry toAgent with
  | none => false
  | some spec =>
      if spec.nonIdempotent then false
      else
        match spec.authority with
        | .responder | .controller => true
        | .workspaceActor | .composite => false

/-- `_utf8_safe`: NUL cannot be stored; surrogates, the other unstorable class, are no
characters of a `String`.
-/
def utf8Safe (text : String) : String :=
  text.map (fun char => if char = Char.ofNat 0 then Char.ofNat 0xFFFD else char)

def JobStatus.value : JobStatus → String
  | .queued => "queued"
  | .leased => "leased"
  | .running => "running"
  | .done => "done"
  | .failed => "failed"
  | .dead => "dead"

end Ledger
