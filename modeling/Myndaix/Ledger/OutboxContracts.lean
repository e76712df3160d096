import Myndaix.Ledger.Counters

/-! The contracts of the outbox: each verb moves at most the one row that it has locked, and only
from the status that it looks for.
-/

namespace Ledger

open Interaction Relational Transactions

variable {config : Config} {exact : Prop} {began : Database} {verb : Verb}

/-- Moving one row of the outbox, with or without a letter. -/
theorem delivers_row (verb : Verb) (change : Outbound → Outbound) (letters : List DeadLetter)
    {rows : Database} {id : Id} {row : Outbound} (holds : Consistent rows)
    (found : rows.outbound? id = some row)
    (kept
      : ∀ row,
          change row
            = {
                row with
                status := (change row).status,
                providerMsgId := (change row).providerMsgId,
                tries := (change row).tries
              })
    (sends : verb.sends row (change row))
    : Delivers verb rows
        {
          rows with
          outbound := Relational.update (fun row => row.id = id) change rows.outbound,
          deadLetters := rows.deadLetters ++ letters
        }
        (fun row => if row.id = id then change row else row) letters where
  same := by simp [Relational.update]
  kept := by
    intro row
    split
    · exact kept row
    · rfl
  moves := by
    intro other mem
    by_cases same : other.id = id
    · have own := lookup_of_mem holds.uniqueOutbound mem
      rw [same] at own
      obtain rfl := Option.some.inj (own.symm.trans found)
      exact Or.inr (by simpa [same] using sends)
    · exact Or.inl (if_neg same)

/-- A letter alone. -/
theorem delivers_letter (rows : Database) (letters : List DeadLetter)
    : Delivers verb rows { rows with deadLetters := rows.deadLetters ++ letters } id letters where
  same := by simp
  kept := fun _ => rfl
  moves := fun _ _ => Or.inl rfl

/-- `enqueue_outbound` adds a row for a job that came from a transport. -/
theorem enqueueOutbound_keeps (jobId : Id) (body : String) (id : Id)
    : Keeps config exact (.enqueueOutbound jobId body id) := by
  intro began holds
  simp only [code, enqueueOutbound, Program.bind_assoc]
  refine look_rule Stable.consistent holds (fun snapshot here => ?_)
  rw [Store.view_nil]
  cases found : (snapshot.job? jobId).bind
    (fun job => job.inboundEventId.bind snapshot.inbound?) with
  | none =>
      simp only [raise_bind]
      exact raise_rule Stable.consistent here (by simp [Verb.fences])
  | some event =>
      obtain ⟨job, foundJob, _⟩ := Option.bind_eq_some_iff.mp found
      cases target : event.envelope.replyTarget with
      | none =>
          simp only [target, raise_bind]
          exact raise_rule Stable.consistent here (by simp [Verb.fences])
      | some replyTarget =>
          simp only [target, Program.bind_assoc]
          have stable : Stable (Rely exact) [] (fun rows =>
                ∃ next, rows.job? jobId = some next ∧ job.Continues next) :=
            Stable.jobRow
          refine insertNew_rule stable ⟨job, foundJob, .refl job⟩
            (fun _ _ _ _ => Or.inr (Or.inl (by simp))) (by simp [Change.keys]) (by simp)
            (by simp [Verb.fences]) (fun rows here absent => ?_)
          have stable' : Stable (Rely exact) ([Key.outboundEntry id] ++ []) (fun rows =>
                (∃ next, rows.job? jobId = some next ∧ job.Continues next)
                ∧ (Key.outboundEntry id).present rows = false) :=
            Stable.jobRow.and (Stable.absent (by simp))
          refine done_rule stable' ⟨here, absent _ (by simp)⟩ ?_
          rintro rows ⟨⟨next, foundNext, _⟩, fresh⟩
          refine ⟨.enqueue ⟨rfl, ?_, ?_⟩, by simp [Verb.fences]⟩
          · simpa [Key.present] using fresh
          · simp [foundNext]

/-- A row of the outbox in a status, under its lock. -/
def InStatus (id : Id) (status : OutboundStatus) (rows : Database) : Prop :=
  Consistent rows ∧ ∃ row, rows.outbound? id = some row ∧ row.status = status

theorem Stable.inStatus {held : List Key} {id : Id} {status : OutboundStatus}
    (locked : Key.outbound id ∈ held)
    : Stable (Rely exact) held (InStatus id status) :=
  Stable.consistent.and (Stable.exists fun _ => (Stable.outbound locked).and (Stable.const _))

theorem inStatus_iff {id : Id} {status : OutboundStatus} {rows : Database}
    : inStatus id status rows = true
      ↔ ∃ row, rows.outbound? id = some row ∧ row.status = status := by
  simp [inStatus, Option.any_eq_true]

/-- `claim_outbound` takes a pending row of its transport. -/
theorem claimOutbound_keeps (transport : String)
    : Keeps config exact (.claimOutbound transport) := by
  intro began holds
  simp only [code, claimOutbound, Program.bind_assoc]
  refine look_rule Stable.consistent holds (fun snapshot here => ?_)
  refine select_rule
    (fun row rows => ∃ latest,
      rows.outbound? row.id = some latest ∧ latest.transport = transport
      ∧ latest.status = .pending)
    ?_ Stable.consistent here ?_ ?_
  · intro row held locked
    exact Stable.exists fun _ =>
      (Stable.outbound (locked _ (List.mem_singleton_self _))).and (Stable.const _)
  · intro row _ rows _ passes
    obtain ⟨latest, found, waits⟩ := (Option.any_eq_true _ _).mp passes
    simp only [Bool.and_eq_true, decide_eq_true_eq] at waits
    exact ⟨latest, found, waits⟩
  · intro selected more rows here sub bound each within
    cases selected with
    | nil => exact done_rule Stable.consistent here (fun _ _ => Ends.quiet rfl)
    | cons row rest =>
        obtain ⟨learned, locked⟩ := each row List.mem_cons_self
        have locked : Key.outbound row.id ∈ more ++ [] :=
          List.mem_append_left _ (locked _ (List.mem_singleton_self _))
        have stable : Stable (Rely exact) (more ++ []) (fun rows =>
              Consistent rows
              ∧ ∃ latest,
                  rows.outbound? row.id = some latest ∧ latest.transport = transport
                  ∧ latest.status = .pending) :=
          Stable.consistent.and (Stable.exists fun _ =>
            (Stable.outbound locked).and (Stable.const _))
        simp only [List.head?_cons, Program.bind_assoc]
        refine write_rule stable ⟨here, learned⟩ (by simpa [Change.keys] using locked)
          (fun _ _ => noFloor_of_other (by simp)) (fun rows here => ?_)
        refine done_rule stable here ?_
        rintro rows ⟨consistent, latest, found, own, pending⟩
        have delivers := delivers_row (.claimOutbound transport)
          (fun row => { row with status := .leased, tries := row.tries + 1 }) [] consistent found
          (fun _ => rfl) ⟨own, pending, rfl⟩
        rw [List.append_nil] at delivers
        exact ⟨.deliver rfl delivers, by simp [Verb.fences]⟩

/-- Marking a row sent takes it from the status it must have, to sent or, when another row has
the provider's id, to failed.
-/
theorem markSentFrom_ensures {Answer : Type} {next : Bool → Txn Answer} {from_ : OutboundStatus}
    {id : Id} {providerMsgId : String} {rows : Database} (holds : Consistent rows)
    (outbox : verb.delivers = true) (unfenced : verb.fences = none)
    (ends : ∀ marked, ∃ answer, next marked = .done answer)
    (sent
      : ∀ row,
          row.id = id
          → row.status = from_
          → verb.sends row { row with status := .sent, providerMsgId := some providerMsgId })
    (failed
      : ∀ row,
          row.id = id → row.status = from_ → verb.sends row { row with status := .failed })
    : (markSentFrom from_ id providerMsgId >>= next).Ensures
        (ledgerSetting config exact verb began) (fun _ => Ends config exact verb)
        ⟨rows, [], []⟩ := by
  have quiet {marked : Bool} {held : List Key} {rows : Database} (here : Consistent rows)
      : (next marked).Ensures (ledgerSetting config exact verb began)
          (fun _ => Ends config exact verb) ⟨rows, held, []⟩ := by
    obtain ⟨answer, same⟩ := ends marked
    rw [same]
    exact done_rule Stable.consistent here (fun _ _ => Ends.quiet unfenced)
  have finish {marked : Bool} {held : List Key} {changes : List Change} {rows : Database}
      {fact : Database → Prop} (stable : Stable (Rely exact) held fact) (here : fact rows)
      (commits
        : ∀ rows, fact rows
            → ∃ sendRow letters, Delivers verb rows (store.view rows changes) sendRow letters)
      : (next marked).Ensures (ledgerSetting config exact verb began)
          (fun _ => Ends config exact verb) ⟨rows, held, changes⟩ := by
    obtain ⟨answer, same⟩ := ends marked
    rw [same]
    refine done_rule stable here (fun rows here => ?_)
    obtain ⟨sendRow, letters, delivers⟩ := commits rows here
    exact ⟨.deliver outbox delivers, by simp [unfenced]⟩
  have locked : Stable (Rely exact) [.outbound id] (InStatus id from_) :=
    Stable.inStatus List.mem_cons_self
  simp only [markSentFrom, Program.bind_assoc]
  refine look_rule Stable.consistent holds (fun snapshot here => ?_)
  split
  case isFalse => exact quiet here
  simp only [Program.bind_assoc]
  refine lock_rule Stable.consistent here (fun _ _ => Or.inr (Or.inl (by simp)))
    (fun rows here => ?_)
  refine look_rule Stable.consistent here (fun rows here => ?_)
  split
  case isFalse => exact quiet here
  rename_i waits
  simp only [Program.bind_assoc]
  refine insert_rule locked ⟨here, inStatus_iff.mp waits⟩
    (fun _ _ key mem => orderly_entry (by rw [List.mem_singleton.mp mem]; rfl)
      (by simp [Key.kind]))
    (by simp [Change.keys]) (by simp) (fun rows here _ => ?_) (fun rows _ here _ _ => ?_)
  · refine finish (Stable.inStatus (by simp)) here ?_
    rintro rows ⟨consistent, row, found, waits⟩
    have delivers := delivers_row verb
      (fun row => { row with status := .sent, providerMsgId := some providerMsgId }) []
      consistent found (fun _ => rfl) (sent row (lookup_key found) waits)
    rw [List.append_nil] at delivers
    exact ⟨_, _, delivers⟩
  · -- The savepoint takes the lock of the row away, so it is found and locked once more.
    simp only [Bool.false_eq_true, if_false, Program.bind_assoc]
    have forgotten : Stable (Rely exact) [] Consistent := Stable.consistent
    refine Ensures.unlock Stable.consistent here.1 (fun _ _ => by simp [Permits])
      (fun rows here => ?_)
    simp only [update, Program.bind_assoc]
    refine look_rule forgotten here (fun rows here => ?_)
    refine updateFrom_rule forgotten here (fun _ _ _ => Or.inr (Or.inl (by simp)))
      (fun _ rows here waits => ⟨here, inStatus_iff.mp waits⟩) locked (by simp [Change.keys])
      (fun _ _ => noFloor_of_other (by simp)) (fun rows here => ?_) (fun _ rows here _ => ?_)
      (fun _ rows here => ?_)
    · refine write_rule locked here (by simp [Change.keys]) (fun _ _ => noFloor_of_other (by simp))
        (fun rows here => finish locked here ?_)
      rintro rows ⟨consistent, row, found, waits⟩
      exact ⟨_, _, delivers_row verb (fun row => { row with status := .failed })
        [⟨id, s!"duplicate provider_msg_id {providerMsgId} (already delivered)"⟩] consistent found
        (fun _ => rfl) (failed row (lookup_key found) waits)⟩
    · refine write_rule Stable.consistent here (by simp [Change.keys])
        (fun _ _ => noFloor_of_other (by simp)) (fun rows here => ?_)
      exact finish Stable.consistent here (fun rows _ => ⟨_, _, delivers_letter rows _⟩)
    · refine write_rule Stable.consistent here (by simp [Change.keys])
        (fun _ _ => noFloor_of_other (by simp)) (fun rows here => ?_)
      exact finish Stable.consistent here (fun rows _ => ⟨_, _, delivers_letter rows _⟩)

theorem markOutboundSent_keeps (id : Id) (providerMsgId : String)
    : Keeps config exact (.markOutboundSent id providerMsgId) := by
  intro began holds
  simp only [code, markOutboundSent, Program.bind_assoc]
  exact markSentFrom_ensures holds rfl rfl (fun _ => ⟨.unit, rfl⟩)
    (fun _ own waits => ⟨own, waits, Or.inl rfl⟩) (fun _ own waits => ⟨own, waits, Or.inr rfl⟩)

theorem markOutboundSentInline_keeps (id : Id) (providerMsgId : String)
    : Keeps config exact (.markOutboundSentInline id providerMsgId) := by
  intro began holds
  simp only [code, markOutboundSentInline, Program.bind_assoc]
  refine markSentFrom_ensures holds rfl rfl ?_
    (fun _ own waits => ⟨own, waits, Or.inl rfl⟩) (fun _ own waits => ⟨own, waits, Or.inr rfl⟩)
  intro marked
  cases marked with
  | true => exact ⟨.count 1, rfl⟩
  | false => exact ⟨.count 0, rfl⟩

/-- `mark_outbound_failed` hands a leased row back, or fails it when its tries are used up. -/
theorem markOutboundFailed_keeps (id : Id) : Keeps config exact (.markOutboundFailed id) := by
  intro began holds
  have quiet {held : List Key} {rows : Database} (here : Consistent rows)
      : (Program.done .unit : Txn Reply).Ensures
          (ledgerSetting config exact (.markOutboundFailed id) began)
          (fun _ => Ends config exact (.markOutboundFailed id)) ⟨rows, held, []⟩ :=
    done_rule Stable.consistent here (fun _ _ => Ends.quiet rfl)
  have locked : Stable (Rely exact) [.outbound id] (InStatus id .leased) :=
    Stable.inStatus List.mem_cons_self
  simp only [code, markOutboundFailed, Program.bind_assoc]
  refine look_rule Stable.consistent holds (fun snapshot here => ?_)
  split
  case isFalse => exact quiet here
  simp only [Program.bind_assoc]
  refine lock_rule Stable.consistent here (fun _ _ => Or.inr (Or.inl (by simp)))
    (fun rows here => ?_)
  refine look_rule Stable.consistent here (fun rows here => ?_)
  rw [Store.view_nil]
  split
  case h_1 => exact quiet here
  rename_i row leased
  obtain ⟨found, leased⟩ := Option.filter_eq_some_iff.mp leased
  have here : InStatus id .leased rows := ⟨here, row, found, by simpa using leased⟩
  split
  · simp only [Program.bind_assoc]
    refine write_rule locked here (by simp [Change.keys]) (fun _ _ => noFloor_of_other (by simp))
      (fun rows here => ?_)
    refine write_rule locked here (by simp [Change.keys]) (fun _ _ => noFloor_of_other (by simp))
      (fun rows here => ?_)
    refine done_rule locked here ?_
    rintro rows ⟨consistent, row, found, leased⟩
    exact ⟨.deliver rfl (delivers_row (.markOutboundFailed id)
      (fun row => { row with status := .failed }) [⟨id, "outbound delivery failed after max tries"⟩]
      consistent found (fun _ => rfl) ⟨lookup_key found, leased, Or.inr rfl⟩),
      by simp [Verb.fences]⟩
  · refine write_rule locked here (by simp [Change.keys]) (fun _ _ => noFloor_of_other (by simp))
      (fun rows here => ?_)
    refine done_rule locked here ?_
    rintro rows ⟨consistent, row, found, leased⟩
    have delivers := delivers_row (.markOutboundFailed id)
      (fun row => { row with status := .pending }) [] consistent found (fun _ => rfl)
      ⟨lookup_key found, leased, Or.inl rfl⟩
    rw [List.append_nil] at delivers
    exact ⟨.deliver rfl delivers, by simp [Verb.fences]⟩

end Ledger
