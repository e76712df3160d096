import Myndaix.Ledger.AdmissionContracts
import Myndaix.Ledger.CancelContract
import Myndaix.Ledger.LeaseContract
import Myndaix.Ledger.OutboxContracts
import Myndaix.Ledger.ReconcileContract

/-! The verified ledger: every verb meets its contract, so every reachable system is sound, and a
verb that runs alone ends in one of the ledger's commits.
-/

namespace Ledger

open Interaction Relational Transactions

variable {config : Config} {exact : Prop}

/-- Moving a counter from outside is a commit about counters too. -/
theorem drift_keeps (repo : String) (active : Int) : Keeps config exact (.drift repo active) := by
  intro began holds
  simp only [code, updateRepo, update, Program.bind_assoc]
  refine look_rule Stable.consistent holds (fun snapshot here => ?_)
  refine updateFrom_rule Stable.consistent here (fun _ _ _ => Or.inr (Or.inl (by simp)))
    (fun _ _ here _ => here) Stable.consistent (by simp [Change.keys])
    (fun _ _ => noFloor_of_other (by simp)) (fun rows here => ?_) (fun _ rows here _ => ?_)
    (fun _ rows here => ?_)
  · refine done_rule Stable.consistent here (fun rows here => ⟨?_, by simp [Verb.fences]⟩)
    exact commit_counters here (by simp [Change.counts])
      (view_uniqueRepo here.uniqueRepo List.nodup_nil (by simp [Change.seeds])) trivial
  · exact done_rule Stable.consistent here (fun _ _ => Ends.quiet rfl)
  · exact done_rule Stable.consistent here (fun _ _ => Ends.quiet rfl)

/-- Every verb keeps to the protocol. -/
theorem verbs_keep (verb : Verb) : Keeps config exact verb := by
  cases verb with
  | ingestInbound id envelope body => exact ingestInbound_keeps id envelope body
  | submitJob submission id now => exact submitJob_keeps submission id now
  | leaseJob workerId skipRepos attemptId now =>
      exact leaseJob_keeps workerId skipRepos attemptId now
  | getAttemptJob attemptId => exact getAttemptJob_keeps attemptId
  | heartbeatAttempt attemptId now => exact heartbeatAttempt_keeps attemptId now
  | completeAttempt attemptId result outboundId now =>
      exact completeAttempt_keeps attemptId result outboundId now
  | failAttempt attemptId result now => exact failAttempt_keeps attemptId result now
  | enqueueOutbound jobId body id => exact enqueueOutbound_keeps jobId body id
  | claimOutbound transport => exact claimOutbound_keeps transport
  | markOutboundSent id providerMsgId => exact markOutboundSent_keeps id providerMsgId
  | markOutboundSentInline id providerMsgId =>
      exact markOutboundSentInline_keeps id providerMsgId
  | markOutboundFailed id => exact markOutboundFailed_keeps id
  | reclaimExpired healedAt now => exact reclaimExpired_keeps healedAt now
  | reconcileRepoConcurrency now => exact reconcileRepoConcurrency_keeps now
  | cancel jobId now => exact cancel_keeps jobId now
  | drift repo active => exact drift_keeps repo active

theorem Consistent.empty : Consistent .empty where
  uniqueInbound := List.nodup_nil
  uniqueJob := List.nodup_nil
  uniqueAttempt := List.nodup_nil
  uniqueRepo := List.nodup_nil
  uniqueOutbound := List.nodup_nil
  attemptJob := by simp [Database.empty]
  jobInbound := by simp [Database.empty]
  oneJob := by simp [Database.empty]
  oneOpen := by simp [Database.empty, Database.openCount]
  owned := by simp [Database.empty]
  owner := by simp [Database.empty]
  counted := by simp [Database.empty]

section Runs

variable {Client : Type} [DecidableEq Client]
  {constraint
    : LedgerSystem Client → Client → Event LedgerError Verb Reply → LedgerSystem Client → Prop}
  {system : LedgerSystem Client}

/-- Every system that the ledger reaches is sound. -/
theorem ledger_sound
    (reachable : Reachable store (code config) constraint .empty system)
    : (protocol config constraint).Sound system :=
  (protocol_verified verbs_keep).sound Consistent.empty reachable

/-- What every commit of the verbs in use preserves holds in every state of the ledger. -/
theorem ledger_preserves_called (property : Database → Prop) (start : property .empty)
    {called : Verb → Prop}
    (begins
      : ∀ {system client verb next}, constraint system client (.began verb) next → called verb)
    (preserved
      : ∀ {verb held database later},
          called verb → Consistent database → Framed (· ∈ held) database later
          → Commit config False verb held database later
          → property database → property later)
    (reachable : Reachable store (code config) constraint .empty system)
    : property system.committed :=
  (protocol_verified verbs_keep).preserves Consistent.empty start begins
    (fun known holds ends => preserved known holds ends.1.framed ends.2.commit) reachable

/-- What every commit preserves holds in every state of the ledger. -/
theorem ledger_preserves (property : Database → Prop) (start : property .empty)
    (preserved
      : ∀ {verb held database later},
          Consistent database → Framed (· ∈ held) database later
          → Commit config False verb held database later
          → property database → property later)
    (reachable : Reachable store (code config) constraint .empty system)
    : property system.committed :=
  ledger_preserves_called property start (fun {_ _ _ _} _ => trivial)
    (fun _ holds framed commit => preserved holds framed commit) reachable

/-- Whatever happens after a state of the ledger, its rows evolve. -/
theorem ledger_evolves {later : LedgerSystem Client} (reachable : LedgerReachable config system)
    (onward : Onward store (code config) system later)
    : Evolves (fun _ => True) system.committed later.committed :=
  (Discipline.Verified.onward (protocol_verified verbs_keep) (Evolves.refl _) Evolves.trans
    (fun holds ends => (ends.2.commit.evolves ends.1.framed holds).mono (fun _ _ => trivial))
    (ledger_sound reachable) onward).2

end Runs

/-- A verb alone ends in one of its commits, or raises what it may raise. -/
theorem alone_ends (config : Config) (verb : Verb) {database : Database}
    (holds : Consistent database)
    : (∃ reply place,
        store.alone (code config verb) database = .ok (reply, store.viewAt place)
        ∧ place.committed = database
        ∧ Guarded place
        ∧ Ends config True verb place)
      ∨ ∃ error locks changes,
          store.alone (code config verb) database = .error error
          ∧ Permits config verb database ⟨database, locks, changes⟩ (.raise error) := by
  have kept : (code config verb).Ensures (ledgerSetting config True verb database)
      (fun _ place => Guarded place ∧ Ends config True verb place) ⟨database, [], []⟩ := by
    refine Program.Ensures.keeps ?_ Guarded.step (verbs_keep verb database holds)
      (by simp [Guarded])
    rintro ⟨rows, locks, changes⟩ ⟨_, _, _⟩ guarded ⟨rfl, rfl, _⟩
    exact guarded
  rcases Ensures.alone kept with ⟨reply, locks, changes, ran, guarded, ends⟩ |
    ⟨error, locks, changes, ran, may⟩
  · exact Or.inl ⟨reply, ⟨database, locks, changes⟩, ran, rfl, guarded, ends⟩
  · exact Or.inr ⟨error, locks, changes, ran, may⟩

/-- What a verb alone has committed is one of its commits, and consistent again. -/
theorem alone_commit {verb : Verb} {database later : Database} {reply : Reply}
    (holds : Consistent database)
    (ran : store.alone (code config verb) database = .ok (reply, later))
    : Consistent later ∧ ∃ held, Commit config True verb held database later := by
  rcases alone_ends config verb holds with ⟨_, place, ran', rfl, guarded, ends⟩ | ⟨_, _, _, ran', _⟩
  · obtain ⟨rfl, rfl⟩ := Prod.mk.inj (Except.ok.inj (ran'.symm.trans ran))
    exact ⟨ends.commit.consistent guarded.framed holds, place.locks, ends.commit⟩
  · rw [ran] at ran'
    cases ran'

end Ledger
