import Myndaix.Capture.Draft
import Myndaix.Capture.Readiness

/-! Who ends a proposing episode. A claim is fenced by its branch and its draft, so the fence holds
as long as no two processes present the same pair; but the pair is a function of the class.
-/

namespace Capture

open Transactions

-- Episodes

/-- A claim that a process has won, as it will present it. -/
structure Ticket where
  fingerprint : Str
  branch : Str
  draftSha : Str
deriving DecidableEq, Repr

/-- The claim that a verb presents. -/
def Verb.presents : Verb → Option Ticket
  | .markCaptureProposed fingerprint branch draftSha _ _ => some ⟨fingerprint, branch, draftSha⟩
  | .releaseProposing fingerprint branch draftSha => some ⟨fingerprint, branch, draftSha⟩
  | _ => none

/-- The claim that a verb makes. -/
def Verb.claims : Verb → Option Ticket
  | .claimForProposing fingerprint branch draftSha _ => some ⟨fingerprint, branch, draftSha⟩
  | _ => none

/-- The claim that a step has won. -/
def wins : Event CaptureError Verb Reply → Option Ticket
  | .committed verb (.won true) => verb.claims
  | _ => none

/-- The tables with the claim that each process holds and the process whose claim is in force on
each class.
-/
structure World (Client : Type) where
  system : CaptureSystem Client
  tickets : Client → Option Ticket
  owner : Str → Option Client

def World.start {Client : Type} : World Client :=
  ⟨.quiet .empty, fun _ => none, fun _ => none⟩

section Stories

variable {Client : Type} [DecidableEq Client]

/-- A won claim begins an episode, which lasts while the class is proposing. -/
def World.after (world : World Client) (client : Client) (event : Event CaptureError Verb Reply)
    (next : CaptureSystem Client)
    : World Client where
  system := next
  tickets :=
    match wins event with
    | some ticket => Function.update world.tickets client (some ticket)
    | none => world.tickets
  owner fingerprint :=
    if next.committed.state? fingerprint = some .proposing then
      if (wins event).any (fun ticket => ticket.fingerprint = fingerprint) then some client
      else world.owner fingerprint
    else none

/-- A process takes a step, presenting no claim but its own, or it ends and forgets its claim. -/
inductive Turn (config : Config)
    : World Client → Client → Option (Event CaptureError Verb Reply) → World Client → Prop
  | step {world client event next}
    (step : Step store (code config) world.system client event next)
    (own
      : ∀ verb ticket,
          event = .began verb
          → verb.presents = some ticket
          → world.tickets client = some ticket)
    : Turn config world client (some event) (world.after client event next)
  | left {world client} (idle : world.system.sessions client = none)
    : Turn config world client none
        { world with tickets := Function.update world.tickets client none }

/-- The worlds that processes reach when every turn meets the guard. -/
inductive Story (config : Config)
    (guard : World Client → Client → Option (Event CaptureError Verb Reply) → Prop)
    : World Client → Prop
  | start : Story config guard .start
  | turn {world client event next} (earlier : Story config guard world)
    (turn : Turn config world client event next) (meets : guard world client event)
    : Story config guard next

/-- A claim is won with a branch and a draft that no other process may still present for the class.
-/
def Distinct (world : World Client) (client : Client)
    (event : Option (Event CaptureError Verb Reply))
    : Prop :=
  ∀ ticket,
    event.bind wins = some ticket → ∀ other, other ≠ client → world.tickets other ≠ some ticket

/-- The claim in force is that of the class's row, and no other process can present it. -/
structure Fenced (world : World Client) : Prop where
  owned
    : ∀ fingerprint row,
        world.system.committed.candidate? fingerprint = some row
        → row.state = .proposing
        → ∃ owner branch draftSha,
            world.owner fingerprint = some owner
            ∧ row.branch = some branch
            ∧ row.draftSha = some draftSha
            ∧ ∀ other,
                other ≠ owner → world.tickets other ≠ some ⟨fingerprint, branch, draftSha⟩
  presented
    : ∀ client session ticket,
        world.system.sessions client = some session
        → session.verb.presents = some ticket
        → world.tickets client = some ticket

end Stories

-- Commits

variable {assignment : Assignment}

section Commits

variable {config : Config} {before after : Database} {verb : Verb} {reply : Reply}
  {fingerprint : Str}

/-- A class that is proposing was proposing with the same claim. -/
def Continues (before after : Database) (fingerprint : Str) : Prop :=
  ∀ row,
    after.candidate? fingerprint = some row
    → row.state = .proposing
    → ∃ earlier,
        before.candidate? fingerprint = some earlier
        ∧ earlier.state = .proposing
        ∧ earlier.branch = row.branch
        ∧ earlier.draftSha = row.draftSha

theorem SameClass.continues (same : SameClass fingerprint before after)
    : Continues before after fingerprint :=
  fun row found proposing => ⟨row, same.1.symm.trans found, proposing, rfl, rfl⟩

/-- An assignment that does not claim leaves no claim in force. -/
theorem continues_update {updated : Str}
    (ends : ∀ row : Candidate, (assignment.apply row).state ≠ .proposing)
    : Continues before (store.apply (.update updated assignment) before) fingerprint := by
  intro row found proposing
  rw [candidate?_update] at found
  split at found
  · obtain ⟨earlier, _, rfl⟩ := Option.map_eq_some_iff.mp found
    exact absurd proposing (ends earlier)
  · exact ⟨row, found, proposing, rfl, rfl⟩

theorem Moved.continues {condition : Candidate → Bool} {won : Bool} {updated : Str}
    (moved : Moved updated condition assignment won before after)
    (ends : won = true → ∀ row : Candidate, (assignment.apply row).state ≠ .proposing)
    : Continues before after fingerprint := by
  cases won with
  | true =>
      rw [moved.2]
      exact continues_update (ends rfl)
  | false =>
      rw [show after = before from moved]
      exact (SameClass.refl fingerprint before).continues

theorem Swept.continues {condition : Candidate → Bool}
    (swept : Swept condition assignment before after)
    (ends : ∀ row : Candidate, (assignment.apply row).state ≠ .proposing)
    : Continues before after fingerprint := by
  rcases swept fingerprint with same | ⟨_, same⟩
  · exact same.continues
  · intro row found proposing
    exact continues_update ends row (same.1.symm.trans found) proposing

/-- A recorder leaves claims alone. -/
theorem Captured.continues {sighting : Sighting} {found : Option ReadyClass} {own : Str}
    (captured : Captured own sighting found before after)
    : Continues before after fingerprint := by
  by_cases same : fingerprint = own
  · subst same
    intro row settled proposing
    rw [captured.candidate] at settled
    obtain rfl := Option.some.inj settled
    have unsettled (row : Candidate) (counts : Counts)
        (proposing : (sighting.settled row counts).state = .proposing)
        : sighting.settled row counts = row := by
      unfold Sighting.settled at proposing ⊢
      split at proposing
      · cases proposing
      · split at proposing
        · cases proposing
        · rename_i notReady old
          rw [if_neg notReady, if_neg old]
    have same := unsettled _ _ proposing
    rw [same] at proposing ⊢
    unfold Sighting.upserted at proposing ⊢
    cases known : before.candidate? fingerprint with
    | none =>
        rw [known] at proposing
        cases proposing
    | some earlier =>
        rw [known] at proposing
        exact ⟨earlier, rfl, proposing, rfl, rfl⟩
  · exact (captured.others fingerprint same).continues

/-- Only a won claim puts a claim in force. -/
theorem continues_of_commits (commits : Commits config before after verb reply)
    (lost : wins (.committed verb reply) = none)
    : Continues before after fingerprint := by
  cases verb with
  | recordCapture sighting =>
      cases reply with
      | won | reaped | expired => cases commits
      | ready found =>
          rw [Commits] at commits
          split at commits
          · exact commits.continues
          · rw [commits.2]
            exact (SameClass.refl fingerprint before).continues
  | claimForProposing =>
      cases reply with
      | ready | reaped | expired => cases commits
      | won won =>
          refine Moved.continues commits fun really => ?_
          rw [really] at lost
          cases lost
  | reapStuckProposing =>
      cases reply with
      | ready | won | expired => cases commits
      | reaped => exact Swept.continues commits (fun _ same => by cases same)
  | markCaptureProposed | releaseProposing =>
      cases reply with
      | ready | reaped | expired => cases commits
      | won => exact Moved.continues commits (fun _ _ same => by cases same)
  | resolveCapture =>
      cases reply with
      | ready | reaped | expired => cases commits
      | won =>
          obtain ⟨assignment, known, moved⟩ := commits
          refine moved.continues fun _ row same => ?_
          simp only [List.mem_cons, List.not_mem_nil, or_false] at known
          rcases known with rfl | rfl | rfl <;> cases same
  | expireStaleCaptures =>
      cases reply with
      | ready | won | reaped => cases commits
      | expired => exact Swept.continues commits (fun _ same => by cases same)

end Commits

-- Fencing

section Fencing

variable {Client : Type} [DecidableEq Client] {config : Config} {world next : World Client}
  {client : Client}

/-- Forgetting a claim keeps the fence. -/
theorem Fenced.left (fenced : Fenced world) (idle : world.system.sessions client = none)
    : Fenced { world with tickets := Function.update world.tickets client none } where
  owned fingerprint row found proposing := by
    obtain ⟨owner, branch, draftSha, owned, ofBranch, ofDraft, others⟩ :=
      fenced.owned fingerprint row found proposing
    refine ⟨owner, branch, draftSha, owned, ofBranch, ofDraft, fun other different => ?_⟩
    by_cases same : other = client
    · subst same
      simp
    · simpa [same] using others other different
  presented other session ticket open_ presents := by
    by_cases same : other = client
    · subst same
      rw [idle] at open_
      cases open_
    · simpa [same] using fenced.presented other session ticket open_ presents

/-- A step that wins no claim keeps the fence on the rows. -/
theorem Fenced.owned_lost (fenced : Fenced world) {event : Event CaptureError Verb Reply}
    {after : CaptureSystem Client} (lost : wins event = none)
    (continues
      : ∀ fingerprint, Continues world.system.committed after.committed fingerprint)
    (fingerprint : Str) (row : Candidate)
    (found : after.committed.candidate? fingerprint = some row) (proposing : row.state = .proposing)
    : ∃ owner branch draftSha,
        (world.after client event after).owner fingerprint = some owner
        ∧ row.branch = some branch
        ∧ row.draftSha = some draftSha
        ∧ ∀ other,
            other ≠ owner
            → (world.after client event after).tickets other
              ≠ some ⟨fingerprint, branch, draftSha⟩ := by
  obtain ⟨earlier, found', proposing', sameBranch, sameDraft⟩ :=
    continues fingerprint row found proposing
  obtain ⟨owner, branch, draftSha, owned, ofBranch, ofDraft, others⟩ :=
    fenced.owned fingerprint earlier found' proposing'
  have state : after.committed.state? fingerprint = some .proposing := by
    rw [Database.state?, found, Option.map_some, proposing]
  refine ⟨owner, branch, draftSha, ?_, sameBranch ▸ ofBranch, sameDraft ▸ ofDraft, ?_⟩
  · simp [World.after, state, lost, owned]
  · simpa [World.after, lost] using others

/-- A won claim keeps the fence on the rows if its pair is distinct. -/
theorem Fenced.owned_won (fenced : Fenced world) {verb : Verb} {after : CaptureSystem Client}
    {ticket : Ticket} (won : wins (.committed verb (.won true)) = some ticket)
    (commits
      : Commits config world.system.committed after.committed verb (.won true))
    (distinct : ∀ other, other ≠ client → world.tickets other ≠ some ticket)
    (fingerprint : Str) (row : Candidate)
    (found : after.committed.candidate? fingerprint = some row) (proposing : row.state = .proposing)
    : ∃ owner branch draftSha,
        (world.after client (.committed verb (.won true)) after).owner fingerprint = some owner
        ∧ row.branch = some branch
        ∧ row.draftSha = some draftSha
        ∧ ∀ other,
            other ≠ owner
            → (world.after client (.committed verb (.won true)) after).tickets other
              ≠ some ⟨fingerprint, branch, draftSha⟩ := by
  have state : after.committed.state? fingerprint = some .proposing := by
    rw [Database.state?, found, Option.map_some, proposing]
  cases verb with
  | claimForProposing claimed branch draftSha now =>
      obtain rfl : (⟨claimed, branch, draftSha⟩ : Ticket) = ticket := Option.some.inj won
      have changed := commits.2
      by_cases same : claimed = fingerprint
      · subst same
        refine ⟨client, branch, draftSha, ?_, ?_, ?_, fun other different => ?_⟩
        · simp [World.after, state, won]
        all_goals
          rw [changed, candidate?_update, if_pos rfl] at found
          obtain ⟨earlier, _, rfl⟩ := Option.map_eq_some_iff.mp found
        · rfl
        · rfl
        · simpa [World.after, won, different] using distinct other different
      · rw [changed, candidate?_update, if_neg same] at found
        obtain ⟨owner, branch', draftSha', owned, ofBranch, ofDraft, others⟩ :=
          fenced.owned fingerprint row found proposing
        refine ⟨owner, branch', draftSha', ?_, ofBranch, ofDraft, fun other different => ?_⟩
        · simp [World.after, state, won, same, owned]
        · by_cases own : other = client
          · simp [World.after, won, own, same]
          · simpa [World.after, won, own] using others other different
  | recordCapture | reapStuckProposing | markCaptureProposed | releaseProposing | resolveCapture
  | expireStaleCaptures => cases won

/-- Open transactions present the claims of their processes, before and after a step. -/
theorem Fenced.presented_step (fenced : Fenced world) {event : Event CaptureError Verb Reply}
    {after : CaptureSystem Client}
    (step : Step store (code config) world.system client event after)
    (own
      : ∀ verb ticket,
          event = .began verb → verb.presents = some ticket → world.tickets client = some ticket)
    (other : Client)
    (session : Session Database Key Change CaptureError Verb Reply) (ticket : Ticket)
    (open_ : after.sessions other = some session) (presents : session.verb.presents = some ticket)
    : (world.after client event after).tickets other = some ticket := by
  have kept {replaced : Option (Session Database Key Change CaptureError Verb Reply)}
      (elsewhere : (world.system.setSession client replaced).sessions other = some session)
      (different : other ≠ client)
      : world.tickets other = some ticket := by
    rw [world.system.setSession_other replaced different] at elsewhere
    exact fenced.presented other session ticket elsewhere presents
  cases step with
  | began verb idle =>
      by_cases same : other = client
      · subst same
        obtain rfl := Option.some.inj ((world.system.setSession_same other _).symm.trans open_)
        exact own verb ticket rfl presents
      · exact kept open_ same
  | acted open' calls answered free =>
      by_cases same : other = client
      · subst same
        obtain rfl := Option.some.inj ((world.system.setSession_same other _).symm.trans open_)
        exact fenced.presented other _ ticket open' presents
      · exact kept open_ same
  | @committed ended result open' finished =>
      have different : other ≠ client := by
        rintro rfl
        simp at open_
      have elsewhere := kept open_ different
      cases won : wins (.committed ended.verb result) with
      | none => simpa [World.after, won] using elsewhere
      | some _ => simpa [World.after, won, different] using elsewhere
  | aborted open' raised | crashed open' =>
      refine kept open_ ?_
      rintro rfl
      simp at open_

/-- The system of a story is one that recorders and proposers reach. -/
theorem Story.reachable
    {guard : World Client → Client → Option (Event CaptureError Verb Reply) → Prop}
    (story : Story config guard world)
    : CaptureReachable config world.system := by
  induction story with
  | start => exact .start
  | turn earlier turn _ ih =>
      cases turn with
      | step step own => exact ih.step step trivial
      | left idle => exact ih

/-- Every distinct turn keeps the fence. -/
theorem Fenced.turn (fenced : Fenced world) (reachable : CaptureReachable config world.system)
    {event : Option (Event CaptureError Verb Reply)} (turn : Turn config world client event next)
    (distinct : Distinct world client event)
    : Fenced next := by
  cases turn with
  | left idle => exact fenced.left idle
  | @step event after step own =>
      refine ⟨?_, fenced.presented_step step own⟩
      cases won : wins event with
      | none =>
          refine fenced.owned_lost won fun fingerprint => ?_
          cases step with
          | began | acted | aborted | crashed =>
              exact (SameClass.refl fingerprint world.system.committed).continues
          | committed open_ finished =>
              exact continues_of_commits
                (commits_of_step reachable (.committed open_ finished)) won
      | some ticket =>
          cases step with
          | began | acted | aborted | crashed => cases won
          | @committed ended result open_ finished =>
              have commits := commits_of_step reachable (.committed open_ finished)
              cases result with
              | ready | reaped | expired => cases won
              | won done =>
                  cases done with
                  | false => cases won
                  | true => exact fenced.owned_won won commits (distinct ticket won)

theorem Story.fenced (story : Story config Distinct world) : Fenced world := by
  induction story with
  | start => exact ⟨by simp [World.start, System.quiet, Database.empty, Database.candidate?,
      Relational.lookup], by simp [World.start, System.quiet]⟩
  | turn earlier turn meets ih => exact ih.turn earlier.reachable turn meets

/-- What presenting a claim does: it hits the row that still holds it, or nothing. -/
theorem presents_commits {before after : Database} {verb : Verb} {reply : Reply} {ticket : Ticket}
    (presents : verb.presents = some ticket) (commits : Commits config before after verb reply)
    : (reply = .won true
        ∧ ∃ row,
            before.candidate? ticket.fingerprint = some row
            ∧ row.state = .proposing
            ∧ row.branch = some ticket.branch
            ∧ row.draftSha = some ticket.draftSha
            ∧ ∀ other, other ≠ ticket.fingerprint → SameClass other before after)
      ∨ reply = .won false ∧ after = before := by
  have hits {fingerprint branch draftSha : Str} {assignment : Assignment} {won : Bool}
      (moved : Moved fingerprint (claimedBy branch draftSha) assignment won before after)
      : (Reply.won won = .won true
          ∧ ∃ row,
              before.candidate? fingerprint = some row
              ∧ row.state = .proposing
              ∧ row.branch = some branch
              ∧ row.draftSha = some draftSha
              ∧ ∀ other, other ≠ fingerprint → SameClass other before after)
        ∨ Reply.won won = .won false ∧ after = before := by
    cases won with
    | false => exact .inr ⟨rfl, moved⟩
    | true =>
        obtain ⟨found, changed⟩ := moved
        obtain ⟨row, there, claimed⟩ := (Option.any_eq_true ..).mp found
        simp only [claimedBy, Bool.and_eq_true, decide_eq_true_eq] at claimed
        refine .inl
          ⟨rfl, row, there, claimed.1.1, claimed.1.2, claimed.2, fun other different => ?_⟩
        rw [changed]
        exact SameClass.apply
          (show (Change.update fingerprint assignment).fingerprint ≠ other from Ne.symm different)
  cases verb with
  | markCaptureProposed | releaseProposing =>
      obtain rfl := Option.some.inj presents
      cases reply with
      | ready | reaped | expired => cases commits
      | won won => exact hits commits
  | recordCapture | claimForProposing | reapStuckProposing | resolveCapture | expireStaleCaptures =>
      cases presents

theorem Moved.kept {before after : Database} {updated fingerprint : Str}
    {condition : Candidate → Bool} {won : Bool}
    (moved : Moved updated condition assignment won before after)
    (was : before.state? fingerprint = some .proposing)
    (idle : ∀ row, row.state = .proposing → condition row = false)
    : after.state? fingerprint = some .proposing := by
  cases won with
  | false => rwa [show after = before from moved]
  | true =>
      obtain ⟨found, changed⟩ := moved
      by_cases same : updated = fingerprint
      · subst same
        obtain ⟨row, there, meets⟩ := (Option.any_eq_true ..).mp found
        have proposing : row.state = .proposing := by
          simpa [Database.state?, there] using was
        rw [idle row proposing] at meets
        cases meets
      · rw [changed, (SameClass.apply (show
          (Change.update updated assignment).fingerprint ≠ fingerprint from same)).state?, was]

/-- An episode ends at the claim that is presented for it, or at a reaper. -/
theorem ends_of_commits {before after : Database} {verb : Verb} {reply : Reply} {fingerprint : Str}
    (commits : Commits config before after verb reply)
    (was : before.state? fingerprint = some .proposing)
    (is : after.state? fingerprint ≠ some .proposing)
    : (∃ timeoutMinutes now, verb = .reapStuckProposing timeoutMinutes now)
      ∨ ∃ ticket,
          verb.presents = some ticket
          ∧ ticket.fingerprint = fingerprint
          ∧ reply = .won true := by
  have presented {ticket : Ticket} (presents : verb.presents = some ticket)
      : ticket.fingerprint = fingerprint ∧ reply = .won true := by
    rcases presents_commits presents commits with ⟨won, _, _, _, _, _, others⟩ | ⟨_, same⟩
    · by_cases own : fingerprint = ticket.fingerprint
      · exact ⟨own.symm, won⟩
      · exact absurd ((others fingerprint own).state?.trans was) is
    · exact absurd (same ▸ was) is
  cases verb with
  | reapStuckProposing timeoutMinutes now => exact .inl ⟨timeoutMinutes, now, rfl⟩
  | markCaptureProposed | releaseProposing => exact .inr ⟨_, rfl, presented rfl⟩
  | recordCapture sighting =>
      cases reply with
      | won | reaped | expired => cases commits
      | ready found =>
          rw [Commits] at commits
          split at commits
          · refine absurd ?_ is
            by_cases same : fingerprint = config.fingerprint sighting.repoId sighting.ruleTag
            · rw [same] at was ⊢
              rw [commits.state?, was, if_neg]
              · rfl
              · intro ready
                have open_ := (recurs_of_ready ready).1
                rw [Sighting.upserted_state, was] at open_
                exact absurd open_ (by decide)
            · rw [(commits.others fingerprint same).state?, was]
          · exact absurd (commits.2 ▸ was) is
  | claimForProposing =>
      cases reply with
      | ready | reaped | expired => cases commits
      | won => exact absurd (Moved.kept commits was (by simp_all)) is
  | resolveCapture =>
      cases reply with
      | ready | reaped | expired => cases commits
      | won =>
          obtain ⟨_, _, moved⟩ := commits
          exact absurd (moved.kept was (by simp_all)) is
  | expireStaleCaptures ttlDays now =>
      cases reply with
      | ready | won | reaped => cases commits
      | expired =>
          refine absurd ?_ is
          rcases commits fingerprint with same | ⟨found, _⟩
          · rw [same.state?, was]
          · obtain ⟨row, there, meets⟩ := (Option.any_eq_true ..).mp found
            rw [Database.state?, there, Option.map_some] at was
            rw [overdue, Option.some.inj was] at meets
            cases meets

/-- **Proposal claims are fenced** in every story in which no claim is won with a pair that another
process may still present for the class. A process whose claim is not in force affects no row with
its mark or its release, and an episode ends by its own claimant or by a reaper.
-/
theorem episodes_fenced (story : Story config Distinct world)
    {event : Event CaptureError Verb Reply} (turn : Turn config world client (some event) next)
    : (∀ verb reply ticket,
        event = .committed verb reply
        → verb.presents = some ticket
        → world.owner ticket.fingerprint ≠ some client
        → reply = .won false ∧ next.system.committed = world.system.committed)
      ∧ ∀ fingerprint,
          world.system.committed.state? fingerprint = some .proposing
          → next.system.committed.state? fingerprint ≠ some .proposing
          → ∃ verb reply,
              event = .committed verb reply
              ∧ ((∃ timeoutMinutes now, verb = .reapStuckProposing timeoutMinutes now)
                ∨ world.owner fingerprint = some client
                  ∧ ∃ ticket, verb.presents = some ticket ∧ ticket.fingerprint = fingerprint) := by
  have fenced := story.fenced
  cases turn with
  | @step _ after step own =>
  -- A claim that hits a row is the one in force on it.
  have inForce {verb : Verb} {ticket : Ticket} (same : event = .committed verb (.won true))
      (presents : verb.presents = some ticket)
      : world.owner ticket.fingerprint = some client := by
    subst same
    have commits := commits_of_step story.reachable step
    rcases presents_commits presents commits with
      ⟨_, row, found, proposing, ofBranch, ofDraft, _⟩ | ⟨lost, _⟩
    · obtain ⟨owner, branch, draftSha, owned, ofBranch', ofDraft', others⟩ :=
        fenced.owned _ row found proposing
      obtain rfl := Option.some.inj (ofBranch'.symm.trans ofBranch)
      obtain rfl := Option.some.inj (ofDraft'.symm.trans ofDraft)
      cases step with
      | committed open_ finished =>
          have held := fenced.presented _ _ ticket open_ presents
          by_contra foreign
          refine others client (fun mine => foreign ?_) held
          rw [owned, mine]
    · cases lost
  constructor
  · intro verb reply ticket same presents foreign
    subst same
    have commits := commits_of_step story.reachable step
    rcases presents_commits presents commits with ⟨won, _⟩ | lost
    · subst won
      exact absurd (inForce rfl presents) foreign
    · exact lost
  · intro fingerprint was is
    cases step with
    | began | acted | aborted | crashed => exact absurd was is
    | @committed session result open_ finished =>
        have commits := commits_of_step story.reachable (.committed open_ finished)
        refine ⟨session.verb, result, rfl, ?_⟩
        refine (ends_of_commits commits was is).imp id fun ended => ?_
        obtain ⟨ticket, presents, rfl, rfl⟩ := ended
        exact ⟨inForce rfl presents, ticket, presents, rfl⟩

end Fencing

-- A pair that comes back

section Sample

/-- The two digests that the sample needs: of its class and of its draft. -/
def Config.drafting : Config where
  sha256 text :=
    if "---".toList.isPrefixOf text then
      "7b391108a5f4b46f49b7f22c32b0a77aa160d60e4994806a2086e4d47001cef4".toList
    else Config.sampleDigest
  order fingerprints := fingerprints
  order_perm _ := .refl _

abbrev SampleWorld : Type :=
  World Bool

/-- A test of a sample's turns. -/
abbrev Test : Type :=
  SampleWorld → Bool → Option (Event CaptureError Verb Reply) → Bool

/-- The claim that is won is not that of the other process. -/
def distinct : Test :=
  fun world client event =>
    (event.bind wins).all (fun ticket => world.tickets (!client) ≠ some ticket)

section Runs

variable (test : Test)

/-- A process begins a verb, presenting its own claim. -/
def World.begin (world : SampleWorld) (client : Bool) (verb : Verb) : Option SampleWorld :=
  if test world client (some (.began verb))
      && verb.presents.all (fun ticket => world.tickets client = some ticket) then
    (world.system.begin (code .drafting) client verb).map (world.after client (.began verb))
  else none

/-- A process makes so many calls. -/
def World.calls (client : Bool) : Nat → SampleWorld → Option SampleWorld
  | 0, world => some world
  | calls + 1, world =>
      if test world client (some .acted) then
        ((world.system.act store [false, true] client).map (world.after client .acted)).bind
          (World.calls client calls)
      else none

/-- A process commits. -/
def World.commit (world : SampleWorld) (client : Bool) : Option SampleWorld :=
  (world.system.commit store client).bind fun done =>
    let event := .committed done.1 done.2.1
    if test world client (some event) then some (world.after client event done.2.2) else none

/-- A process runs a verb of so many calls. -/
def World.run (world : SampleWorld) (client : Bool) (verb : Verb) (calls : Nat)
    : Option SampleWorld := do
  let begun ← world.begin test client verb
  let called ← World.calls test client calls begun
  called.commit test client

/-- The pair that any proposer computes of the class and its one commit. -/
def World.pair (world : SampleWorld) : Option (Str × Str) := do
  let row ← world.system.committed.candidate? Config.sampleDigest
  proposal .drafting row [sampleSighting.commitSha]

/-- A process claims the class with its pair. -/
def World.claim (world : SampleWorld) (client : Bool) (now : Nat) : Option SampleWorld := do
  let (branch, draftSha) ← world.pair
  world.run test client (.claimForProposing Config.sampleDigest branch draftSha now) 4

/-- The class is seen, A claims it and falls behind, and a reaper releases it. -/
def sampleReaped : Option SampleWorld := do
  let ready ← World.start.run test true (.recordCapture sampleSighting) 5
  let claimed ← ready.claim test false 0
  claimed.run test true (.reapStuckProposing 30 9000) 4

/-- A begins to mark the class. -/
def World.mark (world : SampleWorld) (calls : Nat) : Option SampleWorld := do
  let (branch, draftSha) ← world.pair
  let begun ←
    world.begin test false (.markCaptureProposed Config.sampleDigest branch draftSha 7 9001)
  World.calls test false calls begun

variable {test} {world next : SampleWorld} {client : Bool}

/-- The stories whose turns pass the test. -/
abbrev Tested (test : Test) : SampleWorld → Prop :=
  Story .drafting (fun world client event => test world client event = true)

theorem Tested.begin (story : Tested test world) {verb : Verb}
    (began : world.begin test client verb = some next)
    : Tested test next := by
  unfold World.begin at began
  split at began
  · rename_i allowed
    obtain ⟨passed, own⟩ := Bool.and_eq_true_iff.mp allowed
    obtain ⟨system, begins, rfl⟩ := Option.map_eq_some_iff.mp began
    refine Story.turn story (.step (System.begin_sound begins) ?_) passed
    intro verb' ticket same presents
    cases same
    simpa [presents] using own
  · cases began

/-- Calls go on with the story, by induction on their number. -/
theorem Tested.calls (story : Tested test world) {calls : Nat}
    (called : World.calls test client calls world = some next)
    : Tested test next := by
  induction calls generalizing world with
  | zero => exact Option.some.inj called ▸ story
  | succ calls ih =>
      rw [World.calls] at called
      split at called
      · rename_i passed
        obtain ⟨between, acted, called⟩ := Option.bind_eq_some_iff.mp called
        obtain ⟨system, acts, rfl⟩ := Option.map_eq_some_iff.mp acted
        refine ih (Story.turn story (.step (System.act_sound (by decide) acts) ?_) passed) called
        exact fun _ _ same _ => nomatch same
      · cases called

theorem Tested.commit (story : Tested test world) (committed : world.commit test client = some next)
    : Tested test next := by
  obtain ⟨⟨verb, reply, system⟩, commits, same⟩ := Option.bind_eq_some_iff.mp committed
  dsimp only at same
  split at same
  · rename_i passed
    obtain rfl := Option.some.inj same
    exact Story.turn story (.step (System.commit_sound commits) (fun _ _ same _ => nomatch same))
      passed
  · cases same

theorem Tested.run (story : Tested test world) {verb : Verb} {calls : Nat}
    (ran : world.run test client verb calls = some next)
    : Tested test next := by
  simp only [World.run, Option.bind_eq_bind, Option.bind_eq_some_iff] at ran
  obtain ⟨begun, began, called, calls, commits⟩ := ran
  exact ((story.begin began).calls calls).commit commits

theorem Tested.claim (story : Tested test world) {now : Nat}
    (claimed : world.claim test client now = some next)
    : Tested test next := by
  simp only [World.claim, Option.bind_eq_bind, Option.bind_eq_some_iff] at claimed
  obtain ⟨_, _, ran⟩ := claimed
  exact story.run ran

theorem Tested.reaped (reaped : sampleReaped test = some world) : Tested test world := by
  simp only [sampleReaped, Option.bind_eq_bind, Option.bind_eq_some_iff] at reaped
  obtain ⟨ready, recorded, claimed, claims, reaps⟩ := reaped
  have story : Tested test World.start := .start
  exact ((story.run recorded).claim claims).run reaps

theorem Tested.mark (story : Tested test world) {calls : Nat}
    (marked : world.mark test calls = some next)
    : Tested test next := by
  simp only [World.mark, Option.bind_eq_bind, Option.bind_eq_some_iff] at marked
  obtain ⟨_, _, begun, begins, calls⟩ := marked
  exact (story.begin begins).calls calls

end Runs

theorem distinct_sound {world : SampleWorld} {client : Bool}
    {event : Option (Event CaptureError Verb Reply)} (passed : distinct world client event = true)
    : Distinct world client event := by
  intro ticket won other different
  have others : other = !client := by
    cases other <;> cases client <;> simp_all
  simpa [distinct, won, others] using passed

/-- The story of a sample that passes the distinctness test. -/
theorem Tested.distinct {world : SampleWorld} (story : Tested distinct world)
    : Story .drafting Distinct world := by
  induction story with
  | start => exact .start
  | turn earlier turn meets ih => exact ih.turn turn (distinct_sound meets)

/-- After the reaper came, A's mark changes nothing. -/
theorem sample_episodes_fenced
    : ∃ world verb reply system,
        ((sampleReaped distinct).bind fun world => world.mark distinct 1) = some world
        ∧ world.system.commit store false = some (verb, reply, system)
        ∧ reply = .won false
        ∧ system.committed = world.system.committed := by
  have facts
      : (((sampleReaped distinct).bind fun world => world.mark distinct 1).bind fun world =>
          (world.system.commit store false).map fun done =>
            done.1.presents.any (fun ticket => world.owner ticket.fingerprint ≠ some false))
        = some true := by
    decide +kernel
  obtain ⟨world, marked, committed⟩ := Option.bind_eq_some_iff.mp facts
  obtain ⟨⟨verb, reply, system⟩, commits, holds⟩ := Option.map_eq_some_iff.mp committed
  obtain ⟨ticket, presents, foreign⟩ := (Option.any_eq_true ..).mp holds
  obtain ⟨before, reaped, marks⟩ := Option.bind_eq_some_iff.mp marked
  have story := ((Tested.reaped reaped).mark marks).distinct
  have turn : Turn Config.drafting world false (some (.committed verb reply)) _ :=
    .step (System.commit_sound commits) (fun _ _ same _ => nomatch same)
  have lost :=
    (episodes_fenced story turn).1 verb reply ticket rfl presents (by simpa using foreign)
  exact ⟨world, verb, reply, system, marked, commits, lost.1, lost.2⟩

/-- A proposer B claims the released class with the same pair; then A's late mark ends B's episode.
-/
theorem late_mark_hits
    : ∃ world verb ticket next,
        Tested (fun _ _ _ => true) world
        ∧ Turn Config.drafting world false (some (.committed verb (.won true))) next
        ∧ verb.presents = some ticket
        ∧ world.owner ticket.fingerprint = some true
        ∧ world.system.committed.state? ticket.fingerprint = some .proposing
        ∧ next.system.committed.state? ticket.fingerprint = some .proposed := by
  have facts
      : ((((sampleReaped fun _ _ _ => true).bind fun reaped =>
            reaped.claim (fun _ _ _ => true) true 9000).bind fun again =>
              again.mark (fun _ _ _ => true) 4).bind fun world =>
                (world.system.commit store false).map fun done =>
                  decide (done.2.1 = .won true)
                  && (done.1.presents.any fun ticket =>
                    decide (world.owner ticket.fingerprint = some true)
                    && decide (world.system.committed.state? ticket.fingerprint = some .proposing)
                    && decide (done.2.2.committed.state? ticket.fingerprint = some .proposed)))
        = some true := by
    decide +kernel
  obtain ⟨world, marked, committed⟩ := Option.bind_eq_some_iff.mp facts
  obtain ⟨again, claimed, marks⟩ := Option.bind_eq_some_iff.mp marked
  obtain ⟨reaped, reaps, claims⟩ := Option.bind_eq_some_iff.mp claimed
  obtain ⟨⟨verb, reply, system⟩, commits, holds⟩ := Option.map_eq_some_iff.mp committed
  simp only [Bool.and_eq_true, decide_eq_true_eq, Option.any_eq_true] at holds
  obtain ⟨rfl, ticket, presents, ⟨owned, was⟩, is⟩ := holds
  exact ⟨world, verb, ticket, _, ((Tested.reaped reaps).claim claims).mark marks,
    .step (System.commit_sound commits) (fun _ _ same _ => nomatch same), presents, owned, was, is⟩

end Sample

end Capture
