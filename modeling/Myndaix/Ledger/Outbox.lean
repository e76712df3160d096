import Myndaix.Ledger.Leasing

/-! The outbox: queueing replies by hand, claiming them for delivery, and recording how each
delivery went.
-/

namespace Ledger

open Interaction Transactions

/-- Queue a reply outside of completion, for a job that came from a transport. -/
def enqueueOutbound (jobId : Id) (body : String) (id : Id) : Txn Id := do
  let snapshot ← look
  match (snapshot.job? jobId).bind
      (fun job => job.inboundEventId.bind snapshot.inbound?) with
  | none =>
      raise (.valueError (s!"enqueue_outbound: job {jobId} has no inbound_event "
        ++ "(controller-originated replies are a later slice)"))
  | some event =>
      match event.envelope.replyTarget with
      | none => raise .notNullViolation
      | some replyTarget =>
          insertNew [.outboundEntry id]
            (.insertOutbound
              {
                id := id,
                jobId := jobId,
                transport := event.envelope.transport,
                replyTarget := replyTarget,
                body := body,
                status := .pending,
                providerMsgId := none,
                tries := 0
              })
          pure id

/-- A row of the transport that waits for a sender. -/
def deliverable (transport : String) (latest : Database) (row : Outbound) : Bool :=
  (latest.outbound? row.id).any
    (fun row => row.transport = transport && row.status = .pending)

/-- Claim the pending row with the smallest id that no other sender has locked. -/
def claimOutbound (transport : String) : Txn (Option Outbound) := do
  let snapshot ← look
  let picked ← selectForUpdate (fun row => [.outbound row.id]) (deliverable transport) 1
    ((snapshot.outbound.filter (deliverable transport snapshot)).insertionSort
      (fun first second => first.id ≤ second.id))
  match picked.head? with
  | none => pure none
  | some row =>
      write (.claimOutbound row.id)
      pure (some row)

def inStatus (id : Id) (status : OutboundStatus) (rows : Database) : Bool :=
  (rows.outbound? id).any (fun row => row.status = status)

/-- `status = 'sent'` for a row that still has the status `from_`, answering whether there was
one. A provider id that another row has already is an anomaly, and this row fails instead.
-/
def markSentFrom (from_ : OutboundStatus) (id : Id) (providerMsgId : String) : Txn Bool := do
  let snapshot ← look
  if inStatus id from_ snapshot then
    lock (.outbound id)
    let latest ← look
    if inStatus id from_ latest then
      if ← insert [.providerMsg providerMsgId] (.sendOutbound id providerMsgId) then
        pure true
      else
        unlock
        let _ ← update (.outbound id) (fun _ latest => inStatus id from_ latest)
          (.setOutbound id .failed)
        write (.insertDeadLetter
          ⟨id, s!"duplicate provider_msg_id {providerMsgId} (already delivered)"⟩)
        pure false
    else pure false
  else pure false

/-- A transport's sender delivered a row that it had claimed. -/
def markOutboundSent (id : Id) (providerMsgId : String) : Txn Unit := do
  let _ ← markSentFrom .leased id providerMsgId
  pure ()

/-- Inline delivery of a row that nobody claimed, answering how many rows it owned. -/
def markOutboundSentInline (id : Id) (providerMsgId : String) : Txn Nat := do
  if ← markSentFrom .pending id providerMsgId then pure 1 else pure 0

/-- A delivery failed: back to pending until the tries are used up. -/
def markOutboundFailed (id : Id) : Txn Unit := do
  let snapshot ← look
  if inStatus id .leased snapshot then
    lock (.outbound id)
    let latest ← look
    match (latest.outbound? id).filter (fun row => row.status = .leased) with
    | none => pure ()
    | some row =>
        if outboundMaxTries ≤ row.tries then
          write (.setOutbound id .failed)
          write (.insertDeadLetter ⟨id, "outbound delivery failed after max tries"⟩)
        else write (.setOutbound id .pending)
  else pure ()

end Ledger
