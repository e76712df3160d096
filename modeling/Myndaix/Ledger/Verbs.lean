import Myndaix.Ledger.Admission
import Myndaix.Ledger.Janitor
import Myndaix.Ledger.Outbox

/-! The ledger's verbs, each one transaction, and the systems of clients that run them.
-/

namespace Ledger

open Transactions

/-- A verb with its arguments, the fresh ids it draws and the time it reads. `drift` stands for
whatever else may move a soft counter.
-/
inductive Verb : Type where
  | ingestInbound (id : Id) (envelope : TransportEnvelope) (body : String)
  | submitJob (submission : Submission) (id : Id) (now : Time)
  | leaseJob (workerId : String) (skipRepos : List String) (attemptId : Id) (now : Time)
  | getAttemptJob (attemptId : Id)
  | heartbeatAttempt (attemptId : Id) (now : Time)
  | completeAttempt (attemptId : Id) (result : Result) (outboundId : Id) (now : Time)
  | failAttempt (attemptId : Id) (result : Result) (now : Time)
  | enqueueOutbound (jobId : Id) (body : String) (id : Id)
  | claimOutbound (transport : String)
  | markOutboundSent (id : Id) (providerMsgId : String)
  | markOutboundSentInline (id : Id) (providerMsgId : String)
  | markOutboundFailed (id : Id)
  | reclaimExpired (healedAt now : Time)
  | reconcileRepoConcurrency (now : Time)
  | cancel (jobId : Id) (now : Time)
  | drift (repo : String) (active : Int)
deriving DecidableEq, Repr

/-- What a verb answers its caller. -/
inductive Reply : Type where
  | unit
  | count (rows : Nat)
  | id (id : Option Id)
  | job (job : Option Job)
  | lease (lease : Lease)
  | outbound (row : Option Outbound)
deriving DecidableEq, Repr

/-- The transaction of each verb; for `lease_job` one of its rounds. -/
def code (config : Config) : Verb → Txn Reply
  | .ingestInbound id envelope body => return .id (← ingestInbound id envelope body)
  | .submitJob submission id now => return .id (← submitJob submission id now)
  | .leaseJob workerId skipRepos attemptId now =>
      return .lease (← leaseRound config workerId skipRepos attemptId now)
  | .getAttemptJob attemptId => return .job (← getAttemptJob attemptId)
  | .heartbeatAttempt attemptId now => do
      heartbeatAttempt attemptId now
      return .unit
  | .completeAttempt attemptId result outboundId now => do
      completeAttempt attemptId result outboundId now
      return .unit
  | .failAttempt attemptId result now => do
      failAttempt config attemptId result now
      return .unit
  | .enqueueOutbound jobId body id => return .id (← enqueueOutbound jobId body id)
  | .claimOutbound transport => return .outbound (← claimOutbound transport)
  | .markOutboundSent id providerMsgId => do
      markOutboundSent id providerMsgId
      return .unit
  | .markOutboundSentInline id providerMsgId =>
      return .count (← markOutboundSentInline id providerMsgId)
  | .markOutboundFailed id => do
      markOutboundFailed id
      return .unit
  | .reclaimExpired healedAt now => return .count (← reclaimExpired config healedAt now)
  | .reconcileRepoConcurrency now => return .count (← reconcileRepoConcurrency config now)
  | .cancel jobId now => do
      cancel jobId now
      return .unit
  | .drift repo active => do
      let _ ← updateRepo repo (.setActive repo active)
      return .unit

variable {Client : Type}

/-- The ledger and its clients' open transactions. -/
abbrev LedgerSystem (Client : Type) : Type :=
  System Database Key Change LedgerError Verb Reply Client

/-- The systems that clients of the ledger reach from an empty one, in any order of their
calls and with crashes anywhere.
-/
def LedgerReachable [DecidableEq Client] (config : Config)
    : LedgerSystem Client → Prop :=
  Reachable store (code config) unrestricted .empty

end Ledger
