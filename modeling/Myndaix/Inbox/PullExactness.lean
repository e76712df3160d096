import Myndaix.Inbox.Pull

/-! What an incremental pull collects and what it leaves for the next one. Every arrival up to the
new history is in a returned record; the threads are those of all messages that the records list,
which are the threads with mail only if no record lists a message for another reason.
-/

namespace Inbox.Gmail

open Interaction Interaction.Program

-- Collecting threads

/-- Some change of the records is about a message of the thread. -/
def Listed (records : List HistoryRecord) (thread : Str) : Prop :=
  ∃ record ∈ records, ∃ change ∈ record.changes,
    change.message.threadId = some thread ∧ thread ≠ []

variable {thread : Str}

theorem mem_remember {threadIds : List Str} {message : MessageRef}
    : thread ∈ remember threadIds message
      ↔ thread ∈ threadIds ∨ message.threadId = some thread ∧ thread ≠ [] := by
  unfold remember
  cases message.threadId with
  | none => simp
  | some named =>
      by_cases known : named = [] ∨ named ∈ threadIds
      · simp only [if_pos known, Option.some.injEq]
        constructor
        · exact .inl
        · rintro (mem | ⟨rfl, nonempty⟩)
          · exact mem
          · exact known.resolve_left nonempty
      · simp only [if_neg known, List.mem_append, List.mem_singleton, Option.some.injEq]
        constructor
        · rintro (mem | rfl)
          · exact .inl mem
          · exact .inr ⟨rfl, fun empty => known (.inl empty)⟩
        · rintro (mem | ⟨rfl, _⟩)
          · exact .inl mem
          · exact .inr rfl

theorem nodup_remember {threadIds : List Str} {message : MessageRef} (nodup : threadIds.Nodup)
    : (remember threadIds message).Nodup := by
  unfold remember
  cases message.threadId with
  | none => exact nodup
  | some named =>
      dsimp only
      split
      · exact nodup
      · rename_i unknown
        exact nodup.append (List.nodup_singleton named)
          (List.disjoint_singleton.mpr fun mem => unknown (.inr mem))

/-- By induction on the messages. -/
theorem mem_foldl_remember {messages : List MessageRef} {threadIds : List Str}
    : thread ∈ messages.foldl remember threadIds
      ↔ thread ∈ threadIds
        ∨ ∃ message ∈ messages, message.threadId = some thread ∧ thread ≠ [] := by
  induction messages generalizing threadIds with
  | nil => simp
  | cons message messages ih =>
      rw [List.foldl_cons, ih, mem_remember, or_assoc]
      simp

/-- The second loop finds nothing new if the threads of its messages are there, by induction on it.
-/
theorem mem_foldl_labelled {added : List (MessageRef × List Str)} {threadIds : List Str}
    (known
      : ∀ message labelIds,
          (message, labelIds) ∈ added → message.threadId = some thread → thread ≠ []
          → thread ∈ threadIds)
    : thread
        ∈ added.foldl
            (fun threadIds (message, labelIds) =>
              if INBOX ∈ labelIds then remember threadIds message else threadIds)
            threadIds
      ↔ thread ∈ threadIds := by
  induction added generalizing threadIds with
  | nil => simp
  | cons pair added ih =>
      have same
          : thread ∈ (if INBOX ∈ pair.2 then remember threadIds pair.1 else threadIds)
            ↔ thread ∈ threadIds := by
        split
        · rw [mem_remember, or_iff_left_iff_imp]
          exact fun ⟨named, nonempty⟩ => known pair.1 pair.2 List.mem_cons_self named nonempty
        · rfl
      rw [List.foldl_cons, ih, same]
      intro message labelIds mem named nonempty
      exact same.mpr (known message labelIds (List.mem_cons_of_mem _ mem) named nonempty)

/-- A record adds the threads of all messages it lists; those that got a label are among them. -/
theorem mem_collect {threadIds : List Str} {record : HistoryRecord}
    : thread ∈ collect threadIds record ↔ thread ∈ threadIds ∨ Listed [record] thread := by
  have changes
      : (∃ message ∈ record.messages, message.threadId = some thread ∧ thread ≠ [])
        ↔ Listed [record] thread := by
    simp only [Listed, List.mem_singleton, exists_eq_left, record.messages_iff]
    constructor
    · rintro ⟨message, ⟨change, mem, rfl⟩, named⟩
      exact ⟨change, mem, named⟩
    · rintro ⟨change, mem, named⟩
      exact ⟨_, ⟨change, mem, rfl⟩, named⟩
  unfold collect
  rw [mem_foldl_labelled, mem_foldl_remember, changes]
  intro message labelIds mem named nonempty
  refine mem_foldl_remember.mpr (.inr ⟨message, ?_, named, nonempty⟩)
  exact (record.messages_iff message).mpr
    ⟨_, (record.labelsAdded_iff message labelIds).mp mem, rfl⟩

theorem mem_foldl_collect {threadIds : List Str} {records : List HistoryRecord}
    : thread ∈ records.foldl collect threadIds ↔ thread ∈ threadIds ∨ Listed records thread := by
  induction records generalizing threadIds with
  | nil => simp [Listed]
  | cons record records ih =>
      rw [List.foldl_cons, ih, mem_collect, or_assoc]
      simp [Listed]

theorem nodup_foldl_collect {threadIds : List Str} {records : List HistoryRecord}
    (nodup : threadIds.Nodup)
    : (records.foldl collect threadIds).Nodup := by
  refine List.foldlRecOn records collect nodup fun threadIds nodup record _ => ?_
  refine List.foldlRecOn record.labelsAdded _ ?_ fun threadIds nodup pair _ => ?_
  · exact List.foldlRecOn record.messages remember nodup fun _ nodup _ _ => nodup_remember nodup
  · dsimp only
    split
    · exact nodup_remember nodup
    · exact nodup

theorem listed_append {early late : List HistoryRecord}
    : Listed (early ++ late) thread ↔ Listed early thread ∨ Listed late thread := by
  simp [Listed, or_and_right, exists_or]

-- The pages

/-- A message of the record arrives in the inbox, or gets back there. -/
def Inbound (record : HistoryRecord) : Prop :=
  ∃ change ∈ record.changes, change.Into INBOX

/-- Both are of the types that the client requests. -/
theorem Inbound.selected {record : HistoryRecord} (inbound : Inbound record)
    : Selected INBOX historyTypes record := by
  obtain ⟨change, mem, into⟩ := inbound
  refine ⟨change, mem, into, ?_⟩
  cases change with
  | messageAdded => exact .head _
  | labelAdded => exact .tail _ (.head _)
  | messageDeleted | labelRemoved => exact into.elim

/-- Whatever came into the inbox since the start was returned, or is newer than the new history. -/
def NothingLost (start newHistoryId : Nat) (world : World) : Prop :=
  ∀ record ∈ world.records,
    start < record.id → Inbound record → record ∈ world.returned ∨ newHistoryId < record.id

theorem NothingLost.moves {start newHistoryId : Nat} {before after : World}
    (complete : NothingLost start newHistoryId before) (reached : newHistoryId ≤ before.latest)
    (moves : Moves before after)
    : NothingLost start newHistoryId after := by
  intro record mem later inbound
  rw [moves.returned]
  rcases moves.arrived record mem with mem | newer
  · exact complete record mem later inbound
  · exact .inr (reached.trans_lt newer)

/-- Between two pages, with so many requests left. -/
structure Paging (total requests : Nat) (firstPage : Bool) (newHistoryId : Nat)
    (threadIds : List Str)
    (world : World)
    : Prop where
  checkpoint : world.checkpoint = if firstPage then none else some newHistoryId
  reached : firstPage = false → newHistoryId ≤ world.latest
  listed : ∀ thread, thread ∈ threadIds ↔ Listed world.returned thread
  nodup : threadIds.Nodup
  gone : world.gone = []
  served : world.served + requests = total

/-- After the last page. -/
structure Paged (start : Nat) (threadIds : List Str) (newHistoryId : Nat) (world : World)
    : Prop where
  reached : newHistoryId ≤ world.latest
  listed : ∀ thread, thread ∈ threadIds ↔ Listed world.returned thread
  nodup : threadIds.Nodup
  gone : world.gone = []
  complete : NothingLost start newHistoryId world

/-- What the pages come to; they end without a result only when the requests are used up. -/
def Ends (start total : Nat) (result : Option (Except PullError (List Str × Nat))) (world : World)
    : Prop :=
  match result with
  | none => world.served = total
  | some (.error _) => True
  | some (.ok (threadIds, newHistoryId)) => Paged start threadIds newHistoryId world

section Pages

variable {total requests start newHistoryId : Nat} {firstPage : Bool} {threadIds : List Str}
  {before after world : World}

theorem Paging.moves (paging : Paging total requests firstPage newHistoryId threadIds before)
    (moves : Moves before after)
    : Paging total requests firstPage newHistoryId threadIds after where
  checkpoint := moves.checkpoint.trans paging.checkpoint
  reached := fun later => (paging.reached later).trans moves.latest
  listed := by
    rw [moves.returned]
    exact paging.listed
  nodup := paging.nodup
  gone := moves.gone.trans paging.gone
  served := by
    rw [moves.served]
    exact paging.served

theorem Paged.moves (paged : Paged start threadIds newHistoryId before) (moves : Moves before after)
    : Paged start threadIds newHistoryId after where
  reached := paged.reached.trans moves.latest
  listed := by
    rw [moves.returned]
    exact paged.listed
  nodup := paged.nodup
  gone := moves.gone.trans paged.gone
  complete := paged.complete.moves paged.reached moves

variable {page : Page}

/-- The first page gives the new history, and the others leave it. -/
theorem Serves.checkpoint (serves : Serves start INBOX historyTypes page before after)
    (paging : Paging total (requests + 1) firstPage newHistoryId threadIds before)
    : before.checkpoint.getD before.latest
        = checkpointOf firstPage page newHistoryId
      ∧ before.checkpoint.getD before.latest ≤ before.latest := by
  cases firstPage with
  | true =>
      have fresh : before.checkpoint = none := paging.checkpoint
      rw [checkpointOf, serves.first fresh, fresh]
      exact ⟨rfl, le_rfl⟩
  | false =>
      have known : before.checkpoint = some newHistoryId := paging.checkpoint
      rw [known]
      exact ⟨rfl, paging.reached rfl⟩

/-- A page leads to the next one. -/
theorem Serves.paging (serves : Serves start INBOX historyTypes page before after)
    (paging : Paging total (requests + 1) firstPage newHistoryId threadIds before)
    : Paging total requests false
        (checkpointOf firstPage page newHistoryId)
        (page.history.foldl collect threadIds) after := by
  obtain ⟨same, reached⟩ := serves.checkpoint paging
  rw [← same, serves.next]
  exact {
    checkpoint := rfl
    reached := fun _ => reached
    listed := fun thread => by rw [mem_foldl_collect, paging.listed, listed_append]
    nodup := nodup_foldl_collect paging.nodup
    gone := paging.gone
    served := by
      have served := paging.served
      dsimp only
      omega
  }

/-- The last page has all that came in up to the new history. -/
theorem Serves.complete (serves : Serves start INBOX historyTypes page before after)
    (paging : Paging total (requests + 1) firstPage newHistoryId threadIds before)
    (last : page.nextPageToken.filter (· ≠ []) = none)
    : NothingLost start (checkpointOf firstPage page newHistoryId) after := by
  intro record mem later inbound
  rw [← (serves.checkpoint paging).1]
  have known : record ∈ before.records := by
    rw [serves.next] at mem
    exact mem
  rcases Nat.lt_or_ge (before.checkpoint.getD before.latest) record.id with newer | covered
  · exact .inr newer
  · exact .inl (serves.covers last record known later covered inbound.selected)

/-- A request is answered after whatever has arrived until then. -/
theorem ensures_ask {Result : Type} {query : Query} {next : Answer query → Client Result}
    {post : Result → World → Prop}
    (continues
      : ∀ now, Moves world now → ∀ answer after, Answers query now answer after
          → (next answer).Ensures gmail post after)
    : (ask query >>= next).Ensures gmail post world :=
  Ensures.call fun now moves => ⟨trivial, fun answer after answered =>
    continues now moves answer after answered⟩

/-- By induction on the requests that are left. -/
theorem pullPages_ends {pageToken : Option Str}
    (paging : Paging total requests firstPage newHistoryId threadIds world)
    : (pullPages start requests firstPage newHistoryId pageToken threadIds).Ensures gmail
        (Ends start total) world := by
  induction requests generalizing firstPage newHistoryId pageToken threadIds world with
  | zero => exact Ensures.done fun later moves => (paging.moves moves).served
  | succ requests ih =>
      refine ensures_ask fun now moves answer after answered => ?_
      replace paging := paging.moves moves
      cases answer with
      | error failure => exact Ensures.done fun _ _ => trivial
      | ok page =>
          have serves : Serves start INBOX historyTypes page now after := answered
          have next := serves.paging paging
          dsimp only
          split
          · rename_i last
            have paged
                : Paged start (page.history.foldl collect threadIds)
                    (checkpointOf firstPage page newHistoryId) after :=
              ⟨next.reached rfl, next.listed, next.nodup, next.gone, serves.complete paging last⟩
            exact Ensures.done fun later (moves : Moves after later) => paged.moves moves
          · exact ih next

end Pages

-- The summaries

/-- While the threads are summarised: those that were asked for have a summary, or are gone. -/
structure Summing (start newHistoryId : Nat) (threadIds asked : List Str) (out : List ThreadSummary)
    (world : World)
    : Prop where
  reached : newHistoryId ≤ world.latest
  listed : ∀ thread, thread ∈ threadIds ↔ Listed world.returned thread
  complete : NothingLost start newHistoryId world
  threads
    : ∀ thread,
        thread ∈ out.map ThreadSummary.threadId ↔ thread ∈ asked ∧ thread ∉ world.gone
  gone : ∀ thread ∈ world.gone, thread ∈ asked

section Summaries

variable {unicode : Unicode} {lower : Str → Str} {account : Str}
  {start newHistoryId : Nat} {threadIds asked rest : List Str} {threadId : Str}
  {out : List ThreadSummary} {before after world : World}

theorem Paged.summing (paged : Paged start threadIds newHistoryId world)
    : Summing start newHistoryId threadIds [] [] world where
  reached := paged.reached
  listed := paged.listed
  complete := paged.complete
  threads := by simp
  gone := by simp [paged.gone]

theorem Summing.moves (summing : Summing start newHistoryId threadIds asked out before)
    (moves : Moves before after)
    : Summing start newHistoryId threadIds asked out after where
  reached := summing.reached.trans moves.latest
  listed := by
    rw [moves.returned]
    exact summing.listed
  complete := summing.complete.moves summing.reached moves
  threads := by
    rw [moves.gone]
    exact summing.threads
  gone := by
    rw [moves.gone]
    exact summing.gone

/-- A thread that is gone is asked for, and has no summary. -/
theorem Summing.skips (summing : Summing start newHistoryId threadIds asked out world)
    (fresh : threadId ∉ asked)
    : Summing start newHistoryId threadIds (asked ++ [threadId]) out
        { world with gone := threadId :: world.gone } where
  reached := summing.reached
  listed := summing.listed
  complete := summing.complete
  threads := by
    intro thread
    rw [summing.threads, List.mem_append, List.mem_singleton, List.mem_cons, not_or]
    constructor
    · rintro ⟨mem, here⟩
      exact ⟨.inl mem, fun same => fresh (same ▸ mem), here⟩
    · rintro ⟨mem, other, here⟩
      exact ⟨mem.resolve_right other, here⟩
  gone := by
    intro thread mem
    rw [List.mem_append, List.mem_singleton]
    rcases List.mem_cons.mp mem with same | mem
    · exact .inr same
    · exact .inl (summing.gone thread mem)

theorem Summing.adds (summing : Summing start newHistoryId threadIds asked out world)
    (fresh : threadId ∉ asked) {newest : Message}
    : Summing start newHistoryId threadIds (asked ++ [threadId])
        (out ++ [summary unicode lower account threadId newest]) world where
  reached := summing.reached
  listed := summing.listed
  complete := summing.complete
  threads := by
    intro thread
    rw [List.map_append, List.mem_append, summing.threads, List.mem_append, or_and_right]
    refine or_congr_right ?_
    rw [List.map_singleton, List.mem_singleton, List.mem_singleton]
    refine ⟨fun (same : thread = threadId) => ⟨same, fun mem => fresh ?_⟩, And.left⟩
    exact same ▸ summing.gone thread mem
  gone := fun thread mem => List.mem_append_left _ (summing.gone thread mem)

/-- By induction on the threads that are left to ask for. -/
theorem threadSummaries_sums (split_ : threadIds = asked ++ rest) (nodup : threadIds.Nodup)
    (summing : Summing start newHistoryId threadIds asked out world)
    : (threadSummaries unicode lower account rest out).Ensures gmail
        (fun result later =>
          ∀ threads, result = .ok threads
            → Summing start newHistoryId threadIds threadIds threads later)
        world := by
  induction rest generalizing asked out world with
  | nil =>
      rw [List.append_nil] at split_
      refine Ensures.done fun later (moves : Moves world later) threads same => ?_
      cases same
      rw [← split_] at summing
      exact summing.moves moves
  | cons threadId rest ih =>
      have fresh : threadId ∉ asked := by
        rw [split_] at nodup
        exact fun mem => List.disjoint_of_nodup_append nodup mem List.mem_cons_self
      have goes : threadIds = asked ++ [threadId] ++ rest := by
        rw [split_, List.append_assoc, List.singleton_append]
      refine ensures_ask fun now moves answer after answered => ?_
      replace summing := summing.moves moves
      cases answer with
      | error failure =>
          obtain rfl : after = { now with gone := if failure = .http 404 then _ else _ } := answered
          dsimp only
          split
          · exact ih goes (summing.skips fresh)
          · exact Ensures.done fun _ _ _ same => nomatch same
      | ok messages =>
          obtain rfl : after = { now with gone := if messages = [] then _ else _ } := answered
          dsimp only
          split
          · rename_i none_
            rw [List.getLast?_eq_none_iff] at none_
            rw [if_pos none_]
            exact ih goes (summing.skips fresh)
          · rename_i newest last
            have nonempty : messages ≠ [] := by
              rintro rfl
              cases last
            rw [if_neg nonempty]
            exact ih goes (summing.adds fresh)

end Summaries

-- The pull

/-- The thread has a message that arrived in the inbox, or got back there. -/
def Wanted (records : List HistoryRecord) (thread : Str) : Prop :=
  ∃ record ∈ records, ∃ change ∈ record.changes,
    change.Into INBOX ∧ change.message.threadId = some thread ∧ thread ≠ []

/-- The threads are those with mail in the returned records, as far as they are still there. -/
def Exact (pulled : Pulled) (world : World) : Prop :=
  ∀ thread,
    thread ∈ pulled.threads.map ThreadSummary.threadId
    ↔ Wanted world.returned thread ∧ thread ∉ world.gone

/-- Each thread that the returned records name for whatever change has mail in them, or is gone. -/
def Quiet (world : World) : Prop :=
  ∀ thread, Listed world.returned thread → thread ∉ world.gone → Wanted world.returned thread

theorem Wanted.listed {records : List HistoryRecord} (wanted : Wanted records thread)
    : Listed records thread := by
  obtain ⟨record, mem, change, changed, _, named⟩ := wanted
  exact ⟨record, mem, change, changed, named⟩

theorem Summing.exact_iff {start newHistoryId : Nat} {threadIds : List Str} {pulled : Pulled}
    {world : World}
    (summing : Summing start newHistoryId threadIds threadIds pulled.threads world)
    : Exact pulled world ↔ Quiet world := by
  simp only [Exact, summing.threads, summing.listed]
  constructor
  · intro exact_ thread listed here
    exact ((exact_ thread).mp ⟨listed, here⟩).1
  · intro quiet thread
    constructor
    · exact fun ⟨listed, here⟩ => ⟨quiet thread listed here, here⟩
    · exact fun ⟨wanted, here⟩ => ⟨wanted.listed, here⟩

/-- However the mailbox is cut into pages and moves on, a pull loses nothing, and it is exact if no
thread is named for another change alone. It has no result only when its requests are used up.
-/
theorem pullSinceHistory_exact_iff (unicode : Unicode) (lower : Str → Str) (account : Str)
    (requests start : Nat) (mailbox : Mailbox)
    : (pullSinceHistory unicode lower account requests start).Ensures gmail
        (fun result world =>
          (result = none → world.served = requests)
          ∧ ∀ pulled, result = some (.ok pulled)
              → NothingLost start pulled.newHistoryId world ∧ (Exact pulled world ↔ Quiet world))
        (World.start mailbox) := by
  have paging : Paging requests requests true start [] (World.start mailbox) := {
    checkpoint := rfl
    reached := nofun
    listed := by simp [World.start, Listed]
    nodup := List.nodup_nil
    gone := rfl
    served := Nat.zero_add requests
  }
  refine Ensures.bind (pullPages_ends paging) fun result world ends => ?_
  match result with
  | none =>
      refine Ensures.done fun later (moves : Moves world later) => ⟨fun _ => ?_, nofun⟩
      rw [moves.served]
      exact ends
  | some (.error error) => exact Ensures.done fun _ _ => ⟨nofun, nofun⟩
  | some (.ok (threadIds, newHistoryId)) =>
      have paged : Paged start threadIds newHistoryId world := ends
      have sums
          : (threadSummaries unicode lower account threadIds []).Ensures gmail
              (fun result later =>
                ∀ threads, result = .ok threads
                  → Summing start newHistoryId threadIds threadIds threads later)
              world :=
        threadSummaries_sums (List.nil_append threadIds).symm paged.nodup paged.summing
      refine Ensures.bind sums fun result world summed => ?_
      match result with
      | .error error => exact Ensures.done fun _ _ => ⟨nofun, nofun⟩
      | .ok threads =>
          refine Ensures.done fun later (moves : Moves world later) => ⟨nofun, ?_⟩
          rintro pulled same
          cases same
          have summing := (summed threads rfl).moves moves
          exact ⟨summing.complete, summing.exact_iff⟩

/-- The assistant put its own label on a message that is in the inbox. -/
def labelWrite : HistoryRecord where
  id := 101
  changes := [.labelAdded ⟨"m1".toList, some "t1".toList⟩ ["Label_7".toList]]
  messages := [⟨"m1".toList, some "t1".toList⟩]
  labelsAdded := [(⟨"m1".toList, some "t1".toList⟩, ["Label_7".toList])]
  messages_iff := by simp [Change.message, eq_comm]
  labelsAdded_iff := by simp

def labelledMailbox : Mailbox where
  records := [labelWrite]
  latest := 101
  bounded := by simp [labelWrite]

/-- The next pull hands its thread on as if mail had come. -/
theorem pullSinceHistory_echoes
    : ¬ ∀ unicode lower account requests start mailbox,
          (pullSinceHistory unicode lower account requests start).Ensures gmail
            (fun result world => ∀ pulled, result = some (.ok pulled)
              → NothingLost start pulled.newHistoryId world ∧ Exact pulled world)
            (World.start mailbox) := by
  intro claim
  let unicode : Unicode := ⟨id, fun _ => false⟩
  let page : Page := ⟨some 101, [labelWrite], none⟩
  let paged : World :=
    { labelledMailbox with
      checkpoint := some 101, returned := [labelWrite], served := 1, gone := [] }
  let thread : List Message := [⟨"m1".toList, [], none⟩]
  have ensures := claim unicode id "a@example.com".toList 1 100 labelledMailbox
  have serves
      : Serves 100 INBOX historyTypes page (World.start labelledMailbox) paged := {
    genuine := by
      intro record mem
      obtain rfl := List.mem_singleton.mp mem
      exact ⟨.head _, by decide, _, .head _, .tail _ (.head _)⟩
    first := fun _ => rfl
    next := rfl
    covers := fun _ record mem _ _ _ => mem
  }
  have asked := (ensures _ (Moves.refl _)).2 (.ok page) paged serves
  have ended := (asked _ (Moves.refl _)).2 (.ok thread) paged rfl _ (Moves.refl _)
  obtain ⟨_, exact_⟩ := ended _ rfl
  obtain ⟨⟨record, mem, change, changed, into, _⟩, _⟩ := (exact_ "t1".toList).mp (.head _)
  obtain rfl := List.mem_singleton.mp mem
  obtain rfl := List.mem_singleton.mp changed
  exact absurd into (by decide : INBOX ∉ ["Label_7".toList])

end Inbox.Gmail
