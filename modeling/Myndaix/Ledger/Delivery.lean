import Mathlib.Data.Fintype.EquivFin
import Myndaix.Ledger.Alone
import Myndaix.Ledger.Replies

/-! Delivery after a sender has died. Nothing hands a claimed row back but its own sender's mark,
so a row that a dead sender has claimed is stranded, and every other row can still be sent.
-/

namespace Ledger

open Interaction Relational Transactions

variable {config : Config} {database later : Database}

/-- The claimed row that the verb marks. -/
def Verb.marks : Verb → Option Id
  | .markOutboundSent id _ => some id
  | .markOutboundFailed id => some id
  | _ => none

/-- The verbs that the janitor runs. -/
def Verb.janitor : Verb → Bool
  | .reclaimExpired .. | .reconcileRepoConcurrency _ => true
  | _ => false

variable {row : Outbound} {id : Id}

/-- Only its own marks move a claimed row. -/
theorem Commit.leased_stays {exact : Prop} {verb : Verb} {held : List Key}
    (commit : Commit config exact verb held database later)
    (found : database.outbound? id = some row) (leased : row.status = .leased)
    (other : verb.marks ≠ some id)
    : later.outbound? id = some row := by
  cases commit with
  | quiet => exact found
  | settle settles => exact settles.outbound? found
  | claim claims => exact (claims.outbound? id).trans found
  | admission admits => exact (admits.outbound? id).trans found
  | ingest receives => rw [receives.same]; exact found
  | @deliver _ _ _ _ sendRow _ outbox delivers =>
      have kept : sendRow row = row := by
        rcases delivers.moves row (lookup_mem found) with same | sends
        · exact same
        · have identity : row.id = id := lookup_key found
          cases verb with
          | claimOutbound transport => simp [Verb.sends, leased] at sends
          | markOutboundSentInline id providerMsgId => simp [Verb.sends, leased] at sends
          | markOutboundSent marked providerMsgId =>
              exact absurd (congrArg some (sends.1.symm.trans identity)) other
          | markOutboundFailed marked =>
              exact absurd (congrArg some (sends.1.symm.trans identity)) other
          | _ => exact sends.elim
      rw [delivers.same]
      refine (lookup_map fun row => (congrArg Outbound.id (delivers.kept row)).trans rfl).trans ?_
      rw [show lookup Outbound.id id database.outbound = some row from found, Option.map_some, kept]
  | enqueue enqueues =>
      rw [enqueues.same]
      exact lookup_append_of_some _ found

/-- A claim alone takes a pending row of its transport, unless there is none. -/
theorem claimOutbound_alone (config : Config) (holds : Consistent database) (transport : String)
    : (store.alone (code config (.claimOutbound transport)) database
          = .ok (.outbound none, database)
        ∧ ∀ row ∈ database.outbound, row.transport = transport → row.status ≠ .pending)
      ∨ ∃ row ∈ database.outbound,
          row.transport = transport
          ∧ row.status = .pending
          ∧ store.alone (code config (.claimOutbound transport)) database
              = .ok (.outbound (some row), store.apply (.claimOutbound row.id) database) := by
  have waits {row : Outbound} (mem : row ∈ database.outbound)
      : deliverable transport database row = true
        ↔ row.transport = transport ∧ row.status = .pending := by
    have own : database.outbound? row.id = some row :=
      lookup_of_mem holds.uniqueOutbound mem
    simp [deliverable, own]
  generalize listed
    : (database.outbound.filter (deliverable transport database)).insertionSort
        (fun first second => first.id ≤ second.id) = rows
  have perm : rows.Perm (database.outbound.filter (deliverable transport database)) :=
    listed ▸ List.perm_insertionSort _ _
  have all : rows.filter (deliverable transport database) = rows :=
    List.filter_eq_self.mpr (fun row mem => (List.mem_filter.mp (perm.mem_iff.mp mem)).2)
  have ran : store.alone (code config (.claimOutbound transport)) database
      = .ok (.outbound rows.head?,
          rows.head?.elim database fun row => store.apply (.claimOutbound row.id) database) := by
    simp only [code, claimOutbound, Program.bind_assoc, alone_look, listed]
    rw [Store.alone_then (alone_selectForUpdate store _ _ _ _), all]
    cases rows <;> rfl
  cases found : rows with
  | nil =>
      rw [found] at ran
      refine Or.inl ⟨ran, fun row mem own pending => ?_⟩
      have inside : row ∈ rows :=
        perm.mem_iff.mpr (List.mem_filter.mpr ⟨mem, (waits mem).mpr ⟨own, pending⟩⟩)
      rw [found] at inside
      cases inside
  | cons row rest =>
      rw [found] at ran
      have inside : row ∈ rows := by simp [found]
      obtain ⟨mem, passes⟩ := List.mem_filter.mp (perm.mem_iff.mp inside)
      exact Or.inr ⟨row, mem, ((waits mem).mp passes).1, ((waits mem).mp passes).2, ran⟩

/-- A sender's mark delivers its row, if the provider's id is new. -/
theorem markOutboundSent_alone (config : Config) (found : database.outbound? id = some row)
    (leased : row.status = .leased) {providerMsgId : String}
    (fresh : ∀ other ∈ database.outbound, other.providerMsgId ≠ some providerMsgId)
    : store.alone (code config (.markOutboundSent id providerMsgId)) database
      = .ok (.unit, store.apply (.sendOutbound id providerMsgId) database) := by
  have owned : inStatus id .leased database = true := by simp [inStatus, found, leased]
  have absent
      : ([Key.providerMsg providerMsgId].all fun key => !store.present key database) = true := by
    simpa [store, storeWith, Key.present] using fresh
  have sent
      : store.alone (markSentFrom .leased id providerMsgId) database
        = .ok (true, store.apply (.sendOutbound id providerMsgId) database) := by
    simp only [markSentFrom, alone_look, owned, if_true, alone_lock]
    simp only [insert, Program.call_bind, Store.alone_insert, absent, if_true]
    rfl
  simp only [code, markOutboundSent, Program.bind_assoc]
  exact Store.alone_then sent _

/-- No stored provider id is this one. -/
theorem exists_freshProviderMsgId (database : Database)
    : ∃ providerMsgId, ∀ row ∈ database.outbound, row.providerMsgId ≠ some providerMsgId := by
  obtain ⟨providerMsgId, fresh⟩ :=
    Infinite.exists_notMem_finset (database.outbound.filterMap Outbound.providerMsgId).toFinset
  refine ⟨providerMsgId, fun row mem same => fresh ?_⟩
  simpa using ⟨row, mem, same⟩

variable {Client : Type}

/-- A step of what is left without the dead senders: a living sender claims a row, the janitor
sweeps, or a living sender marks a row that it claimed itself. The second component says who
claimed each row last.
-/
inductive RescueStep (config : Config) (dead : Client → Prop)
    : Database × (Id → Client) → Database × (Id → Client) → Prop
  | claimed {database later owner row} (client : Client) (alive : ¬dead client)
    (transport : String)
    (ran
      : store.alone (code config (.claimOutbound transport)) database
        = .ok (.outbound (some row), later))
    : RescueStep config dead (database, owner) (later, Function.update owner row.id client)
  | swept {database later owner verb reply} (janitor : verb.janitor = true)
    (ran : store.alone (code config verb) database = .ok (reply, later))
    : RescueStep config dead (database, owner) (later, owner)
  | marked {database later owner verb reply id} (marks : verb.marks = some id)
    (alive : ¬dead (owner id))
    (ran : store.alone (code config verb) database = .ok (reply, later))
    : RescueStep config dead (database, owner) (later, owner)

/-- Some run without the dead senders brings the row to `sent`. -/
def Deliverable (config : Config) (dead : Client → Prop) (database : Database)
    (owner : Id → Client) (id : Id)
    : Prop :=
  ∃ later owner' row,
    Relation.ReflTransGen (RescueStep config dead) (database, owner) (later, owner')
    ∧ later.outbound? id = some row
    ∧ row.status = .sent

/-- The row is claimed by a sender that has died. -/
def Stranded (dead : Client → Prop) (owner : Id → Client) (row : Outbound) : Prop :=
  row.status = .leased ∧ dead (owner row.id)

section Rescue

variable {dead : Client → Prop} {owner : Id → Client}

theorem Deliverable.after {owner' : Id → Client}
    (step : RescueStep config dead (database, owner) (later, owner'))
    (rest : Deliverable config dead later owner' id)
    : Deliverable config dead database owner id := by
  obtain ⟨last, lastOwner, row, run, found, sent⟩ := rest
  exact ⟨last, lastOwner, row, .head step run, found, sent⟩

/-- No step helps a stranded row. -/
theorem RescueStep.stranded {owner' : Id → Client}
    (step : RescueStep config dead (database, owner) (later, owner')) (holds : Consistent database)
    (found : database.outbound? row.id = some row) (stranded : Stranded dead owner row)
    : Consistent later ∧ later.outbound? row.id = some row ∧ Stranded dead owner' row := by
  cases step with
  | @claimed _ _ _ claimed client alive transport ran =>
      obtain ⟨holds', held, commit⟩ := alone_commit holds ran
      refine ⟨holds', commit.leased_stays found stranded.1 (by simp [Verb.marks]), ?_⟩
      have other : row.id ≠ claimed.id := by
        intro same
        rcases claimOutbound_alone config holds transport with ⟨ran', _⟩ |
          ⟨picked, mem, _, pending, ran'⟩
        · simp [ran'] at ran
        · simp only [ran', Except.ok.injEq, Prod.mk.injEq, Reply.outbound.injEq,
            Option.some.injEq] at ran
          obtain ⟨rfl, -⟩ := ran
          have own := lookup_of_mem holds.uniqueOutbound mem
          rw [← same] at own
          rw [← Option.some.inj (found.symm.trans own), stranded.1] at pending
          cases pending
      exact ⟨stranded.1, by simpa [Function.update_of_ne other] using stranded.2⟩
  | @swept _ _ _ verb _ janitor ran =>
      obtain ⟨holds', held, commit⟩ := alone_commit holds ran
      have unmarked : verb.marks ≠ some row.id := by
        cases verb <;> simp_all [Verb.janitor, Verb.marks]
      exact ⟨holds', commit.leased_stays found stranded.1 unmarked, stranded⟩
  | @marked _ _ _ verb _ id marks alive ran =>
      obtain ⟨holds', held, commit⟩ := alone_commit holds ran
      have unmarked : verb.marks ≠ some row.id := by
        rw [marks]
        rintro same
        exact alive (Option.some.inj same ▸ stranded.2)
      exact ⟨holds', commit.leased_stays found stranded.1 unmarked, stranded⟩

/-- So a stranded row stays stranded, by induction on the run. -/
theorem Stranded.not_deliverable (holds : Consistent database)
    (found : database.outbound? row.id = some row) (stranded : Stranded dead owner row)
    : ¬Deliverable config dead database owner row.id := by
  rintro ⟨later, owner', last, run, found', sent⟩
  have kept (reached : Database × (Id → Client))
      (run : Relation.ReflTransGen (RescueStep config dead) (database, owner) reached)
      : Consistent reached.1
        ∧ reached.1.outbound? row.id = some row
        ∧ Stranded dead reached.2 row := by
    induction run with
    | refl => exact ⟨holds, found, stranded⟩
    | tail earlier step ih => exact step.stranded ih.1 ih.2.1 ih.2.2
  obtain ⟨_, still, leased, _⟩ := kept _ run
  rw [Option.some.inj (found'.symm.trans still), leased] at sent
  cases sent

/-- A living sender delivers the row that it has claimed. -/
theorem deliverable_leased (config : Config) (found : database.outbound? id = some row)
    (leased : row.status = .leased) (alive : ¬dead (owner id))
    : Deliverable config dead database owner id := by
  obtain ⟨providerMsgId, fresh⟩ := exists_freshProviderMsgId database
  have ran := markOutboundSent_alone config found leased fresh
  have own : lookup Outbound.id id database.outbound = some row := found
  have moved
      : (store.apply (.sendOutbound id providerMsgId) database).outbound? id
        = some { row with status := .sent, providerMsgId := some providerMsgId } := by
    refine (lookup_update ?_).trans ?_
    · exact fun _ => rfl
    · simp [own, lookup_key own]
  have marks : (Verb.markOutboundSent id providerMsgId).marks = some id := rfl
  exact ⟨_, owner, _, .single (.marked marks alive ran), moved, rfl⟩

/-- How many rows of a transport wait. -/
def waiting (transport : String) (database : Database) : Nat :=
  database.outbound.countP (fun row => row.transport = transport && row.status = .pending)

/-- A living sender claims the waiting rows of a transport until it gets this one, by induction
on how many wait.
-/
theorem deliverable_pending (config : Config) (holds : Consistent database)
    (found : database.outbound? row.id = some row) (pending : row.status = .pending)
    {client : Client} (alive : ¬dead client)
    : Deliverable config dead database owner row.id := by
  generalize bound : waiting row.transport database = waits
  induction waits using Nat.strong_induction_on generalizing database owner with
  | h waits ih =>
      rcases claimOutbound_alone config holds row.transport with
        ⟨_, none_⟩ | ⟨picked, mem, own, waited, ran⟩
      · exact absurd pending (none_ row (lookup_mem found) rfl)
      · have claimed (id : Id)
            : (store.apply (.claimOutbound picked.id) database).outbound? id
              = (database.outbound? id).map
                  (fun row =>
                    if row.id = picked.id then
                      { row with status := .leased, tries := row.tries + 1 }
                    else row) := by
          refine (lookup_update ?_).trans ?_
          · exact fun _ => rfl
          · simp only [decide_eq_true_eq]
            rfl
        have holds' := (alone_commit holds ran).1
        refine Deliverable.after (.claimed client alive row.transport ran) ?_
        by_cases same : row.id = picked.id
        · have leased
              : (store.apply (.claimOutbound picked.id) database).outbound? row.id
                = some { row with status := .leased, tries := row.tries + 1 } := by
            rw [claimed, found, Option.map_some, if_pos same]
          exact deliverable_leased config leased rfl (by simpa [same] using alive)
        · have kept
              : (store.apply (.claimOutbound picked.id) database).outbound? row.id
                = some row := by
            rw [claimed, found, Option.map_some, if_neg same]
          have fewer
              : waiting row.transport (store.apply (.claimOutbound picked.id) database)
                < waiting row.transport database := by
            refine countP_map_lt ?_ mem (by simp [own, waited]) (by simp)
            intro other _ waits
            split at waits
            · simp at waits
            · exact waits
          exact ih _ (bound ▸ fewer) holds' kept rfl

end Rescue

variable [DecidableEq Client] {system : LedgerSystem Client}

/-- In every state of the ledger a row that is neither sent nor failed can be delivered without
the dead senders exactly when none of them has claimed it.
-/
theorem deliverable_iff_not_stranded (reachable : LedgerReachable config system)
    (owner : Id → Client) (dead : Client → Prop) (living : ∃ client, ¬dead client)
    : ∀ row ∈ system.committed.outbound,
        row.status ≠ .sent
        → row.status ≠ .failed
        → (Deliverable config dead system.committed owner row.id ↔ ¬Stranded dead owner row) := by
  intro row mem unsent unfailed
  have holds : Consistent system.committed := (ledger_sound reachable).invariant
  have found : system.committed.outbound? row.id = some row :=
    lookup_of_mem holds.uniqueOutbound mem
  constructor
  · exact fun deliverable stranded => stranded.not_deliverable holds found deliverable
  · intro free
    obtain ⟨client, alive⟩ := living
    cases status : row.status with
    | pending => exact deliverable_pending config holds found status alive
    | leased =>
        exact deliverable_leased config found status (fun died => free ⟨status, died⟩)
    | sent => exact absurd status unsent
    | failed => exact absurd status unfailed

/-- A reply that its sender has claimed. -/
def sampleClaimed : List Verb :=
  sampleLeasing
    ++ [
      Verb.completeAttempt 3 ⟨.ok, "done", none, none⟩ 4 30,
      .claimOutbound "telegram"
    ]

/-- If the sender survives, the reply can be delivered. -/
theorem deliverable_iff_not_stranded_sample
    : ∃ row ∈ (sampleState sampleClaimed).outbound,
        row.status = .leased
        ∧ Deliverable .sample (fun client => client = 1) (sampleState sampleClaimed)
            (fun _ => 0) row.id := by
  have some : ∃ row, row ∈ (sampleState sampleClaimed).outbound :=
    List.exists_mem_of_length_pos (by decide)
  obtain ⟨row, mem⟩ := some
  have leased : row.status = .leased := by
    have all : ∀ row ∈ (sampleState sampleClaimed).outbound, row.status = .leased := by decide
    exact all row mem
  refine ⟨row, mem, leased, ?_⟩
  refine (deliverable_iff_not_stranded (sample_reachable sampleClaimed) (fun _ => (0 : Nat))
    (fun client => client = 1) ⟨0, by decide⟩ row mem ?_ ?_).mpr ?_
  · simp [leased]
  · simp [leased]
  · exact fun stranded => absurd stranded.2 (by simp)

/-- If the sender dies, the reply is neither sent nor failed, and it never will be. -/
theorem claimed_reply_stranded
    : LedgerReachable .sample (System.quiet (sampleState sampleClaimed) : LedgerSystem Nat)
      ∧ (sampleState sampleClaimed).outbound.map (fun row => (row.id, row.status))
          = [(4, .leased)]
      ∧ ¬Deliverable .sample (fun client => client = 0) (sampleState sampleClaimed)
          (fun _ => 0) 4 := by
  have reachable := sample_reachable sampleClaimed
  have holds : Consistent (sampleState sampleClaimed) := (ledger_sound reachable).invariant
  refine ⟨reachable, by decide, ?_⟩
  have isSome : ((sampleState sampleClaimed).outbound? 4).isSome = true := by decide
  obtain ⟨row, found⟩ := Option.isSome_iff_exists.mp isSome
  have leased
      : ((sampleState sampleClaimed).outbound? 4).map Outbound.status = some .leased := by
    decide
  rw [found] at leased
  have identity : row.id = 4 := lookup_key found
  rw [← identity] at found ⊢
  exact Stranded.not_deliverable holds found ⟨Option.some.inj leased, rfl⟩

end Ledger
