import Myndaix.Knowledge.Contracts
import Myndaix.Transactions.Schedule

/-! The walk fence: a commit is accepted only if no other commit of its scope was accepted since
its walker read the fence, so a stale walk cannot bring a deleted document back.
-/

namespace Knowledge

open Interaction Transactions

variable {config : Config} {verb : Verb} {first rows : Database} {held : List Int}

/-- Both commits: the scope's lock, the conflict gate, the new generation, and then the body. -/
def gated (config : Config) (scope : String) (expectFence : Option Nat)
    (body : Database → Txn SyncResult)
    : Txn SyncResult := do
  lock (config.hashtext scope)
  let rows ← look
  if stale rows scope expectFence then pure .conflicted
  else
    write (.bumpGen scope)
    let cur ← look
    body cur

/-- The documents that the verb has to archive are archived among these changes. -/
def Archives (verb : Verb) (first : Database) (changes : List Change) : Prop :=
  verb.tombstones = true
  → ∀ path,
      path ∉ verb.docs.map DocRecord.path
      → first.active verb.scope path = true
      → ∃ row, Change.insertDoc row ∈ changes ∧ row.scope = verb.scope ∧ row.path = path

/-- The place of a commit that is through. -/
def Through (verb : Verb) (first : Database) (held : List Int) (result : SyncResult)
    (place : Place Database Int Change)
    : Prop :=
  result.conflict = false
  ∧ ∃ changes rows,
      place = ⟨rows, held, changes⟩
      ∧ Writing verb first changes rows
      ∧ Archives verb first changes

/-- An active document is one that the scope has rows of. -/
theorem active_mem_paths {database : Database} {scope path : String}
    (active : database.active scope path = true)
    : path ∈ database.paths scope := by
  obtain ⟨row, found, _⟩ := (Option.any_eq_true ..).mp active
  have inside := List.mem_filter.mp (newest_mem found)
  refine List.mem_dedup.mpr (List.mem_map.mpr ⟨row, inside.1, ?_⟩)
  simpa using inside.2

theorem mem_tombstones {scope path : String} {paths : List String} (mem : path ∈ paths)
    : ∃ row, Change.insertDoc row ∈ tombstones scope paths ∧ row.scope = scope ∧ row.path = path :=
  ⟨archived scope path, List.mem_map.mpr ⟨path, mem, rfl⟩, rfl, rfl⟩

/-- The gate: whatever gets past it found the fence that it expected. -/
theorem gated_ensures {body : Database → Txn SyncResult} (sequenced : Sequenced rows)
    (through
      : ∀ first,
          Writing verb first [.bumpGen verb.scope] first
          → (body (store.view first [.bumpGen verb.scope])).Ensures (indexSetting config)
              (Through verb first [config.hashtext verb.scope])
              ⟨first, [config.hashtext verb.scope], [.bumpGen verb.scope]⟩)
    : (gated config verb.scope verb.expectFence body).Ensures (indexSetting config)
        (fun result place =>
          Commits verb (.result result) place.committed (store.viewAt place)
          ∧ ((Reply.result result).accepted = true
            → config.hashtext verb.scope ∈ place.locks))
        ⟨rows, [], []⟩ := by
  have stable (held : List Int) : Stable (Rely config) held Sequenced :=
    fun _ _ moved sequenced => moved.2 sequenced
  refine Ensures.lock (stable []) sequenced (fun _ _ => trivial) (fun rows sequenced => ?_)
  refine look_rule (stable _) sequenced (fun rows sequenced => ?_)
  rw [Store.view_nil]
  split
  · refine Ensures.finish (stable _) sequenced
      (fun rows _ => ⟨?_, by simp [Reply.accepted, SyncResult.conflicted]⟩)
    simp [Commits, Reply.accepted, SyncResult.conflicted, Store.viewAt]
  · rename_i fresh
    have locked : config.hashtext verb.scope ∈ [config.hashtext verb.scope] :=
      List.mem_singleton_self _
    have expected (fence : Nat) (expects : verb.expectFence = some fence)
        : rows.fence verb.scope = fence := by
      simpa [stale, expects] using fresh
    have kept : Stable (Rely config) [config.hashtext verb.scope]
        (fun later => Sequenced later ∧ SameScope verb.scope rows later) :=
      (stable _).and (fun _ _ moved same => same.trans (moved.1 verb.scope locked))
    refine Ensures.write kept ⟨sequenced, SameScope.refl _ rows⟩ (fun _ _ => trivial)
      (fun later here => ?_)
    have committing {later : Database} (here : Sequenced later ∧ SameScope verb.scope rows later)
        : Committing verb [.bumpGen verb.scope] later :=
      ⟨here.1, fun fence expects => here.2.fence.trans (expected fence expects), ⟨[], rfl⟩,
        fun change mem => by rw [List.mem_singleton.mp mem]; rfl⟩
    refine look_rule kept here (fun first here => ?_)
    refine Program.Ensures.weaken (through first ⟨committing here, SameScope.refl _ first⟩) ?_
    rintro result _ ⟨proceeds, changes, rows, rfl, writing, archives⟩
    refine ⟨?_, fun _ => locked⟩
    rw [Commits, if_pos (by simp [Reply.accepted, proceeds])]
    refine writing.1.accepts (fun tombstones path missing active => ?_)
    exact archives tombstones path missing ((writing.2.active path).symm.trans active)

/-- After the gate, documents are active as before. -/
theorem active_bumped (database : Database) (scope other path : String)
    : (store.view database [.bumpGen scope]).active other path = database.active other path := by
  rw [Store.view_cons, Store.view_nil, Database.active, current?_bump, Database.active]

section Bodies

variable {scope : String} {docs : List DocRecord} {tombstoneMissing : Bool}
  {expectFence : Option Nat}

/-- What a sync does after its gate. -/
def syncBody (config : Config) (scope : String) (docs : List DocRecord)
    (tombstoneMissing : Bool) (cur : Database)
    : Txn SyncResult := do
  let result ← Program.fold (syncDoc config scope cur) .start docs
  if tombstoneMissing then
    tombstone scope result
      ((config.order (cur.paths scope)).filter
        (fun path => cur.active scope path && path ∉ docs.map DocRecord.path))
  else pure result

theorem knowledgeSync_eq
    : knowledgeSync config scope docs tombstoneMissing expectFence
      = gated config scope expectFence (syncBody config scope docs tombstoneMissing) :=
  rfl

/-- A sync archives the active documents that its walk did not find. -/
theorem syncBody_ensures {first : Database}
    (here
      : Writing (.knowledgeSync scope docs tombstoneMissing expectFence) first
          [.bumpGen scope] first)
    : (syncBody config scope docs tombstoneMissing
          (store.view first [.bumpGen scope])).Ensures
        (indexSetting config)
        (Through (.knowledgeSync scope docs tombstoneMissing expectFence) first
          [config.hashtext scope])
        ⟨first, [config.hashtext scope], [.bumpGen scope]⟩ := by
  generalize named : Verb.knowledgeSync scope docs tombstoneMissing expectFence = verb at here ⊢
  have ofScope : verb.scope = scope := named ▸ rfl
  have ofDocs : verb.docs = docs := named ▸ rfl
  have ofTombstones : verb.tombstones = tombstoneMissing := named ▸ rfl
  subst ofScope ofDocs ofTombstones
  have locked : config.hashtext verb.scope ∈ [config.hashtext verb.scope] :=
    List.mem_singleton_self _
  unfold syncBody
  refine (docs_ensures locked (fun _ mem => mem)
    (fun walked proceeds here => syncDoc_ensures locked walked proceeds here) here rfl).bind ?_
  rintro result _ ⟨inserts, proceeds, rows, rfl, writing⟩
  split
  · refine Program.Ensures.weaken (tombstone_ensures locked writing proceeds) ?_
    rintro last _ ⟨proceeds, rows, rfl, writing⟩
    refine ⟨proceeds, _, rows, rfl, writing, fun _ path missing active => ?_⟩
    rw [← active_bumped first verb.scope] at active
    have listed := (config.order_perm _).mem_iff.mpr (active_mem_paths active)
    have chosen
        : (Database.active (store.view first [.bumpGen verb.scope]) verb.scope path
            && decide (path ∉ verb.docs.map DocRecord.path)) = true := by
      rw [active, decide_eq_true missing]
      rfl
    have inside
        : path ∈ (config.order ((store.view first [.bumpGen verb.scope]).paths verb.scope)).filter
            (fun path =>
              (store.view first [.bumpGen verb.scope]).active verb.scope path
              && path ∉ verb.docs.map DocRecord.path) :=
      List.mem_filter.mpr ⟨listed, chosen⟩
    obtain ⟨row, mem, own⟩ := mem_tombstones inside
    exact ⟨row, List.mem_append_right _ mem, own⟩
  · rename_i keeps
    refine Ensures.finish (Stable.writing locked) writing (fun rows writing => ?_)
    exact ⟨proceeds, _, rows, rfl, writing, fun tombstones => absurd tombstones keeps⟩

/-- What a rebuild does after its gate. -/
def rebuildBody (config : Config) (scope : String) (docs : List DocRecord) (cur : Database)
    : Txn SyncResult := do
  let result ← tombstone scope .start ((config.order (cur.paths scope)).filter (cur.active scope))
  Program.fold (reingestDoc config scope) result docs

theorem knowledgeRebuild_eq
    : knowledgeRebuild config scope docs expectFence
      = gated config scope expectFence (rebuildBody config scope docs) :=
  rfl

/-- A rebuild archives every active document before it ingests what its walk found. -/
theorem rebuildBody_ensures {first : Database}
    (here : Writing (.knowledgeRebuild scope docs expectFence) first [.bumpGen scope] first)
    : (rebuildBody config scope docs (store.view first [.bumpGen scope])).Ensures
        (indexSetting config)
        (Through (.knowledgeRebuild scope docs expectFence) first [config.hashtext scope])
        ⟨first, [config.hashtext scope], [.bumpGen scope]⟩ := by
  generalize named : Verb.knowledgeRebuild scope docs expectFence = verb at here ⊢
  have ofScope : verb.scope = scope := named ▸ rfl
  have ofDocs : verb.docs = docs := named ▸ rfl
  subst ofScope ofDocs
  have locked : config.hashtext verb.scope ∈ [config.hashtext verb.scope] :=
    List.mem_singleton_self _
  unfold rebuildBody
  refine (tombstone_ensures locked here rfl).bind ?_
  rintro result _ ⟨proceeds, rows, rfl, writing⟩
  refine Program.Ensures.weaken (docs_ensures locked (fun _ mem => mem)
    (fun walked proceeds here => reingestDoc_ensures locked walked proceeds here) writing
    proceeds) ?_
  rintro last _ ⟨inserts, proceeds, rows, rfl, writing⟩
  refine ⟨proceeds, _, rows, rfl, writing, fun _ path _ active => ?_⟩
  rw [← active_bumped first verb.scope] at active
  obtain ⟨row, mem, own⟩ := mem_tombstones (List.mem_filter.mpr
    ⟨(config.order_perm _).mem_iff.mpr (active_mem_paths active), active⟩)
  exact ⟨row, List.mem_append_left _ (List.mem_append_right _ mem), own⟩

end Bodies

/-- Every verb keeps to the protocol. -/
theorem protocol_verified {Client : Type} (config : Config)
    : (protocol config
        : Discipline store (code config)
          (@unrestricted Database Int Change Empty Verb Client Reply)).Verified := by
  intro verb database sequenced
  cases verb with
  | knowledgeFence scope =>
      refine look_rule (fun _ _ moved sequenced => moved.2 sequenced) sequenced (fun rows _ => ?_)
      refine Ensures.finish (Stable.const True) trivial
        (fun rows _ => ⟨?_, by simp [Reply.accepted]⟩)
      simp [Commits, Reply.accepted, Store.viewAt]
  | knowledgeSync scope docs tombstoneMissing expectFence =>
      refine Program.Ensures.map ?_
      rw [knowledgeSync_eq]
      exact gated_ensures sequenced (fun first here => syncBody_ensures here)
  | knowledgeRebuild scope docs expectFence =>
      refine Program.Ensures.map ?_
      rw [knowledgeRebuild_eq]
      exact gated_ensures sequenced (fun first here => rebuildBody_ensures here)

section Runs

variable {Client : Type} [DecidableEq Client] {system later : IndexSystem Client}

theorem index_sound (reachable : IndexReachable config system)
    : (protocol config).Sound system :=
  (protocol_verified config).sound Sequenced.empty reachable

/-- The fence of a scope is no lower. -/
def Rises (scope : String) (before after : Database) : Prop :=
  before.fence scope ≤ after.fence scope

/-- Whatever happens, fences only move up. -/
theorem fence_onward (reachable : IndexReachable config system)
    (onward : Onward store (code config) system later) (scope : String)
    : system.committed.fence scope ≤ later.committed.fence scope := by
  have risen : (protocol config).Sound later ∧ Rises scope system.committed later.committed := by
    refine Discipline.Verified.onward (protocol_verified config) ?_ ?_ ?_
      (index_sound reachable) onward
    · exact fun _ => Nat.le_refl _
    · exact fun earlier latest => Nat.le_trans earlier latest
    · intro verb began reply place _ ends
      have commits := ends.1
      unfold Commits at commits
      split at commits
      · exact commits.others scope
      · rw [commits]
        exact Nat.le_refl _
  exact risen.2

/-- A step commits a change of this scope: a sync or a rebuild that is not rejected. -/
def Accepted (scope : String) (event : Event Empty Verb Reply) : Prop :=
  ∃ verb reply, event = .committed verb reply ∧ verb.scope = scope ∧ reply.accepted = true

/-- What a commit step did, as the protocol has it. -/
theorem commits_of_step (reachable : IndexReachable config system) {client : Client}
    {verb : Verb} {reply : Reply}
    (step : Step store (code config) system client (.committed verb reply) later)
    : Commits verb reply system.committed later.committed := by
  cases step with
  | committed open_ finished =>
      exact ((index_sound reachable).finished open_ finished).1

/-- An accepted commit moves its scope's fence. -/
theorem Accepted.moved (reachable : IndexReachable config system) {client : Client}
    {scope : String} {event : Event Empty Verb Reply} (accepted : Accepted scope event)
    (step : Step store (code config) system client event later)
    : system.committed.fence scope < later.committed.fence scope := by
  obtain ⟨verb, reply, rfl, rfl, accepted⟩ := accepted
  have commits := commits_of_step reachable step
  rw [Commits, if_pos accepted] at commits
  exact commits.moved

/-- The knowledge fence. Let a walker read its fence in `read`, walk, and commit in a later
state with that fence. If the commit is accepted, the fence moves up and no other commit of the
scope was accepted since `read`; if it is rejected, the tables stay as they are. And once a walk
that did not find a document has been committed with its tombstones, the document is inactive,
and no commit with a fence that was read before brings it back.
-/
theorem fence_protects {read : IndexSystem Client} (reachable : IndexReachable config read)
    (scope : String)
    : (∀ system client verb reply next,
          Onward store (code config) read system
          → Step store (code config) system client (.committed verb reply) next
          → verb.scope = scope
          → verb.expectFence = some (read.committed.fence scope)
          → (reply.accepted = true
              → system.committed.fence scope < next.committed.fence scope
                ∧ ∀ before other event after,
                    Onward store (code config) read before
                    → Step store (code config) before other event after
                    → Onward store (code config) after system
                    → ¬Accepted scope event)
            ∧ (reply.accepted = false → next.committed = system.committed))
      ∧ ∀ before deleter walk reply after path,
          Onward store (code config) read before
          → Step store (code config) before deleter (.committed walk reply) after
          → walk.scope = scope
          → reply.accepted = true
          → walk.tombstones = true
          → path ∉ walk.docs.map DocRecord.path
          → after.committed.active scope path = false
            ∧ ∀ system client verb reply next,
                Onward store (code config) after system
                → Step store (code config) system client (.committed verb reply) next
                → verb.scope = scope
                → verb.expectFence = some (read.committed.fence scope)
                → next.committed = system.committed := by
  have reached {system : IndexSystem Client} (onward : Onward store (code config) read system)
      : IndexReachable config system :=
    reachable.onward onward
  -- A commit with this fence is accepted only while the fence is still the same.
  have still {system next : IndexSystem Client} {client : Client} {verb : Verb} {reply : Reply}
      (onward : Onward store (code config) read system)
      (step : Step store (code config) system client (.committed verb reply) next)
      (own : verb.scope = scope)
      (expects : verb.expectFence = some (read.committed.fence scope))
      (accepted : reply.accepted = true)
      : system.committed.fence scope = read.committed.fence scope := by
    have commits := commits_of_step (reached onward) step
    rw [Commits, if_pos accepted] at commits
    subst own
    exact commits.expected _ expects
  -- An accepted commit since then has moved it.
  have passed {before after system : IndexSystem Client} {other : Client}
      {event : Event Empty Verb Reply} (earlier : Onward store (code config) read before)
      (step : Step store (code config) before other event after)
      (later : Onward store (code config) after system) (accepted : Accepted scope event)
      : read.committed.fence scope < system.committed.fence scope := by
    have first := fence_onward reachable earlier scope
    have second := accepted.moved (reached earlier) step
    have third := fence_onward (reached (earlier.tail ⟨other, event, step⟩)) later scope
    omega
  constructor
  · intro system client verb reply next onward step own expects
    refine ⟨fun accepted => ⟨?_, ?_⟩, fun rejected => ?_⟩
    · exact Accepted.moved (reached onward) ⟨verb, reply, rfl, own, accepted⟩ step
    · intro before other event after earlier between later accepted'
      have same := still onward step own expects accepted
      have moved := passed earlier between later accepted'
      omega
    · have commits := commits_of_step (reached onward) step
      rwa [Commits, if_neg (by simp [rejected])] at commits
  · intro before deleter walk reply after path earlier walked own accepted tombstones missing
    have commits := commits_of_step (reached earlier) walked
    rw [Commits, if_pos accepted] at commits
    refine ⟨own ▸ commits.deleted tombstones path missing, ?_⟩
    intro system client verb reply' next later step own' expects
    have onward : Onward store (code config) read system :=
      (earlier.tail ⟨deleter, _, walked⟩).trans later
    have moved := passed earlier walked later ⟨walk, reply, rfl, own, accepted⟩
    have rejected : reply'.accepted = false := by
      by_contra accepted'
      have same := still onward step own' expects (by simpa using accepted')
      omega
    have commits' := commits_of_step (reached onward) step
    rwa [Commits, if_neg (by simp [rejected])] at commits'

end Runs

section Sample

/-- An index without documents that are too large. -/
def Config.sample : Config where
  hashtext _ := 1
  oversize _ := false
  order paths := paths
  order_perm _ := .refl _

def sampleDoc : DocRecord :=
  ⟨"a.md", "a", "", "text", "sha", false⟩

/-- A commit up to its last call: the client begins and makes so many calls. -/
def sampleCalls (system : IndexSystem Bool) (client : Bool) (docs : List DocRecord)
    (fence calls : Nat)
    : Option (IndexSystem Bool) := do
  let system ←
    system.begin (code .sample) client (.knowledgeSync "research" docs true (some fence))
  system.play store [false, true] (List.replicate calls client)

theorem sampleCalls_onward {system next : IndexSystem Bool} {client : Bool}
    {docs : List DocRecord} {fence calls : Nat}
    (called : sampleCalls system client docs fence calls = some next)
    : Onward store (code .sample) system next := by
  obtain ⟨begun, begins, played⟩ := Option.bind_eq_some_iff.mp called
  exact .head ⟨client, _, System.begin_sound begins⟩ (Onward.play (by decide) played)

/-- The sample index with one document, in the state in which two walkers read the fence. -/
def sampleRead : Option (IndexSystem Bool) := do
  let system ← sampleCalls (.quiet .empty) false [sampleDoc] 0 5
  let (_, _, system) ← system.commit store false
  return system

theorem sampleRead_reachable {system : IndexSystem Bool} (read : sampleRead = some system)
    : IndexReachable .sample system := by
  simp only [sampleRead, Option.bind_eq_bind, Option.bind_eq_some_iff, Option.pure_def,
    Option.some.injEq] at read
  obtain ⟨called, calls, ⟨verb, reply, committed⟩, commits, rfl⟩ := read
  have onward : Onward store (code .sample) (.quiet .empty) called := sampleCalls_onward calls
  exact (Reachable.start.onward onward).step (System.commit_sound commits) trivial

/-- One walker sees the document deleted and commits; the other then commits its older walk. -/
structure SampleStory where
  read : IndexSystem Bool
  before : IndexSystem Bool
  walk : Verb
  walked : Reply
  after : IndexSystem Bool
  system : IndexSystem Bool
  verb : Verb
  reply : Reply
  next : IndexSystem Bool

def sampleStory : Option SampleStory := do
  let read ← sampleRead
  let before ← sampleCalls read true [] 2 5
  let (walk, walked, after) ← before.commit store true
  let system ← sampleCalls after false [sampleDoc] 2 2
  let (verb, reply, next) ← system.commit store false
  return ⟨read, before, walk, walked, after, system, verb, reply, next⟩

/-- The older walk is rejected, and the document stays deleted. -/
theorem fence_protects_sample
    : ∃ story,
        sampleStory = some story
        ∧ story.read.committed.active "research" "a.md" = true
        ∧ story.after.committed.active "research" "a.md" = false
        ∧ story.next.committed = story.system.committed := by
  have facts
      : sampleStory.any
          (fun story =>
            story.read.committed.active "research" "a.md"
            && story.read.committed.fence "research" = 2
            && story.walk = .knowledgeSync "research" [] true (some 2)
            && story.walked.accepted
            && story.verb = .knowledgeSync "research" [sampleDoc] true (some 2))
        = true := by
    decide
  obtain ⟨story, found, holds⟩ := (Option.any_eq_true ..).mp facts
  simp only [Bool.and_eq_true, decide_eq_true_eq] at holds
  obtain ⟨⟨⟨⟨active, stamp⟩, walk⟩, accepted⟩, verb⟩ := holds
  refine ⟨story, found, active, ?_⟩
  simp only [sampleStory, Option.bind_eq_bind, Option.bind_eq_some_iff, Option.pure_def,
    Option.some.injEq] at found
  obtain ⟨_, reads, _, calls, ⟨_, _, _⟩, commits, _, calls', ⟨_, _, _⟩, commits', rfl⟩ := found
  simp only at active stamp walk accepted verb
  subst walk verb
  obtain ⟨inactive, later⟩ :=
    (fence_protects (sampleRead_reachable reads) "research").2 _ _ _ _ _ "a.md"
      (sampleCalls_onward calls) (System.commit_sound commits) rfl accepted rfl
      (by simp [Verb.docs])
  exact ⟨inactive, later _ _ _ _ _ (sampleCalls_onward calls') (System.commit_sound commits') rfl
    (by rw [stamp]; rfl)⟩

end Sample

end Knowledge
