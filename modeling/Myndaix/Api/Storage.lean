import Myndaix.Api.Requests
import Myndaix.Ledger.Alone
import Myndaix.Ledger.Verified

/-! The two endpoints that write: what becomes of a request that passed validation, and when it is
stored.
-/

namespace Api

open Ledger Relational Transactions
open Text (Points isSurrogate points)

-- The endpoints

inductive Response : Type where
  | created (jobId : Option Id)
  | unprocessable
  | internalError
deriving DecidableEq

/-- The ids and the time of a request's statements. -/
structure Draws where
  event : Id
  job : Id
  now : Time

/-- `_API_NS + p.id`. -/
def createdBy (principal : Points) : Points :=
  points "api:" ++ principal

/-- Where a reply goes: to the sender, unless the message says otherwise. -/
def InboundIn.target (message : InboundIn) : Points :=
  match message.replyTarget with
  | some (first :: rest) => first :: rest
  | _ => message.transport ++ points ":" ++ message.senderId

/-- The parameters of `ingest_inbound`; the envelope is a document of all its texts. -/
def InboundIn.bindIngest (message : InboundIn) : Option (TransportEnvelope × String) := do
  let transport ← bindText message.transport
  let _ ← bindJsonb message.transport
  let _ ← bindJsonb message.account
  let _ ← bindJsonb message.senderId
  let target ← bindJsonb message.target
  let _ ← bindJsonb message.dedupeKey
  let body ← bindText (utf8SafePoints message.body)
  let dedupeKey ← bindText message.dedupeKey
  pure (⟨transport, some target, dedupeKey⟩, body)

/-- A `jsonb` parameter: every string of the document has to be acceptable. -/
def bindDocument (document : Value) : Option Unit :=
  if document.strings.all jsonbAccepts then some () else none

/-- A nullable `text` parameter. -/
def bindNullable : Option Points → Option (Option String)
  | none => some none
  | some text => (bindText text).map some

/-- The parameters of `submit_job`. -/
def bindSubmit (toAgent prompt createdBy : Points) (context : Value)
    (repoId baseRef : Option Points)
    (inboundEventId : Option Id)
    : Option Submission := do
  let createdBy ← bindText createdBy
  let toAgent ← bindText toAgent
  let prompt ← bindText (utf8SafePoints prompt)
  let _ ← bindDocument context
  let repoId ← bindNullable repoId
  let baseRef ← bindNullable baseRef
  pure {
    toAgent := toAgent,
    prompt := prompt,
    parentId := none,
    inboundEventId := inboundEventId,
    createdBy := createdBy,
    repoId := repoId,
    baseRef := baseRef,
    priority := 0
  }

/-- A call of `submit_job` and the answer made of it. -/
def submitCall (draws : Draws) (submission : Option Submission) (database : Database)
    : Response × Database :=
  match submission with
  | none => (.internalError, database)
  | some submission =>
      match store.alone (submitJob submission draws.job draws.now) database with
      | .ok (job, after) => (.created job, after)
      | .error _ => (.internalError, database)

section Endpoints

variable (libraries : Libraries) (principal : Points) (draws : Draws)

def InboundIn.submission (message : InboundIn) (event : Id) : Option Submission :=
  bindSubmit message.toAgent message.body (createdBy principal) (.object []) none none
    (some event)

/-- `POST /inbound`; `meanwhile` is what others commit between its two calls. -/
def postInbound (meanwhile : Database → Database) (body : Value) (database : Database)
    : Response × Database :=
  match InboundIn.validate libraries body with
  | none => (.unprocessable, database)
  | some message =>
      match message.bindIngest with
      | none => (.internalError, database)
      | some (envelope, text) =>
          match store.alone (ingestInbound draws.event envelope text) database with
          | .error _ => (.internalError, database)
          | .ok (event, ingested) =>
              submitCall draws (message.submission principal event) (meanwhile ingested)

def SubmitIn.submission (request : SubmitIn) : Option Submission :=
  bindSubmit request.toAgent request.prompt (createdBy principal) request.context request.repoId
    request.baseRef none

/-- `POST /jobs`. -/
def postJobs (body : Value) (database : Database) : Response × Database :=
  match SubmitIn.validate libraries body with
  | none => (.unprocessable, database)
  | some request => submitCall draws (request.submission principal) database

end Endpoints

-- What binds

/-- The texts of a message that validation leaves open are such as the database takes. -/
structure InboundIn.Fits (message : InboundIn) (principal : Points) : Prop where
  replyTarget : ∀ target ∈ message.replyTarget, 0 ∉ target
  scalar
    : ∀ text ∈ [message.transport, message.dedupeKey, message.toAgent], ∀ point ∈ text,
        isSurrogate point = false
  paired
    : ∀ text ∈ [message.account, message.senderId, message.target], Ledger.paired text = true
  principal : Storable principal

/-- And so for a submission. -/
structure SubmitIn.Fits (request : SubmitIn) (principal : Points) : Prop where
  scalar
    : ∀ text ∈ request.toAgent :: (request.repoId.toList ++ request.baseRef.toList),
        ∀ point ∈ text, isSurrogate point = false
  context : ∀ text ∈ request.context.strings, Ledger.paired text = true
  principal : Storable principal

/-- The prefix of a principal is never in the way. -/
theorem storable_createdBy {principal : Points}
    : Storable (createdBy principal) ↔ Storable principal := by
  have namespaced : Storable (points "api:") := by decide +kernel
  unfold createdBy Storable
  simp only [List.mem_append, or_imp, forall_and]
  exact ⟨fun both => both.2, fun storable => ⟨namespaced, storable⟩⟩

/-- A null is bound, and a text if it can be stored. -/
theorem bindNullable_isSome {text : Option Points}
    : (bindNullable text).isSome = true ↔ ∀ present ∈ text, Storable present := by
  cases text with
  | none => simp [bindNullable]
  | some text => simp [bindNullable, bindText_isSome]

/-- A document is bound if `jsonb` takes each of its strings. -/
theorem bindDocument_isSome {document : Value}
    : (bindDocument document).isSome = true
      ↔ ∀ text ∈ document.strings, jsonbAccepts text = true := by
  unfold bindDocument
  split <;> simp_all

/-- A sequence of bindings succeeds if its first one does and the others after it. -/
theorem isSome_bind_const {First Second : Type} {first : Option First}
    {next : First → Option Second} {fits : Prop}
    (later : ∀ value, (next value).isSome = true ↔ fits)
    : (first >>= next).isSome = true ↔ first.isSome = true ∧ fits := by
  cases first with
  | none => simp
  | some value => simpa using later value

/-- A last step that cannot fail makes no difference. -/
theorem isSome_bind_pure {First Second : Type} {first : Option First} {last : First → Second}
    : (first >>= fun value => pure (last value)).isSome = true ↔ first.isSome = true := by
  cases first <;> simp

/-- A submission is bound exactly if each of its columns is. -/
theorem bindSubmit_isSome {toAgent prompt createdBy : Points} {context : Value}
    {repoId baseRef : Option Points} {inboundEventId : Option Id}
    : (bindSubmit toAgent prompt createdBy context repoId baseRef inboundEventId).isSome = true
      ↔ Storable createdBy
        ∧ Storable toAgent
        ∧ (∀ text ∈ context.strings, jsonbAccepts text = true)
        ∧ (∀ text ∈ repoId, Storable text)
        ∧ (∀ text ∈ baseRef, Storable text) := by
  have safe := bindText_isSome.mpr (storable_utf8Safe prompt)
  rw [← bindText_isSome, ← bindText_isSome, ← bindNullable_isSome, ← bindNullable_isSome,
    ← bindDocument_isSome]
  unfold bindSubmit
  refine isSome_bind_const fun _ => isSome_bind_const fun _ => ?_
  refine (isSome_bind_const fun _ => ?_).trans (and_iff_right safe)
  exact isSome_bind_const fun _ => isSome_bind_const fun _ => isSome_bind_pure

/-- A message is bound exactly if each of its columns is. -/
theorem bindIngest_isSome {message : InboundIn}
    : message.bindIngest.isSome = true
      ↔ Storable message.transport
        ∧ jsonbAccepts message.account = true
        ∧ jsonbAccepts message.senderId = true
        ∧ jsonbAccepts message.target = true
        ∧ Storable message.dedupeKey := by
  have safe := bindText_isSome.mpr (storable_utf8Safe message.body)
  have columns
      : message.bindIngest.isSome = true
        ↔ Storable message.transport
          ∧ jsonbAccepts message.transport = true
          ∧ jsonbAccepts message.account = true
          ∧ jsonbAccepts message.senderId = true
          ∧ jsonbAccepts message.target = true
          ∧ jsonbAccepts message.dedupeKey = true
          ∧ Storable message.dedupeKey := by
    simp only [← bindText_isSome, ← bindJsonb_isSome]
    unfold InboundIn.bindIngest
    refine isSome_bind_const fun _ => isSome_bind_const fun _ => isSome_bind_const fun _ => ?_
    refine isSome_bind_const fun _ => isSome_bind_const fun _ => isSome_bind_const fun _ => ?_
    exact (isSome_bind_const fun _ => isSome_bind_pure).trans (and_iff_right safe)
  rw [columns]
  constructor
  · intro all
    exact ⟨all.1, all.2.2.1, all.2.2.2.1, all.2.2.2.2.1, all.2.2.2.2.2.2⟩
  · intro some
    exact ⟨some.1, some.1.jsonb, some.2.1, some.2.2.1, some.2.2.2.1, some.2.2.2.2.jsonb,
      some.2.2.2.2⟩

/-- The columns of a submission that binds. -/
theorem bindSubmit_columns {toAgent prompt createdBy : Points} {context : Value}
    {repoId baseRef : Option Points} {inboundEventId : Option Id} {submission : Submission}
    (binds
      : bindSubmit toAgent prompt createdBy context repoId baseRef inboundEventId
        = some submission)
    : submission.parentId = none
      ∧ submission.inboundEventId = inboundEventId
      ∧ bindText (utf8SafePoints prompt) = some submission.prompt
      ∧ bindText toAgent = some submission.toAgent
      ∧ bindNullable repoId = some submission.repoId
      ∧ bindNullable baseRef = some submission.baseRef := by
  unfold bindSubmit at binds
  obtain ⟨creator, -, binds⟩ := Option.bind_eq_some_iff.mp binds
  obtain ⟨agent, itsAgent, binds⟩ := Option.bind_eq_some_iff.mp binds
  obtain ⟨text, itsPrompt, binds⟩ := Option.bind_eq_some_iff.mp binds
  obtain ⟨_, -, binds⟩ := Option.bind_eq_some_iff.mp binds
  obtain ⟨repo, itsRepo, binds⟩ := Option.bind_eq_some_iff.mp binds
  obtain ⟨base, itsBase, binds⟩ := Option.bind_eq_some_iff.mp binds
  cases binds
  exact ⟨rfl, rfl, itsPrompt, itsAgent, itsRepo, itsBase⟩

/-- What is bound of a message. -/
theorem bindIngest_columns {message : InboundIn} {envelope : TransportEnvelope} {body : String}
    (binds : message.bindIngest = some (envelope, body))
    : bindText message.dedupeKey = some envelope.dedupeKey
      ∧ bindText (utf8SafePoints message.body) = some body := by
  unfold InboundIn.bindIngest at binds
  obtain ⟨transport, -, binds⟩ := Option.bind_eq_some_iff.mp binds
  obtain ⟨_, -, binds⟩ := Option.bind_eq_some_iff.mp binds
  obtain ⟨_, -, binds⟩ := Option.bind_eq_some_iff.mp binds
  obtain ⟨_, -, binds⟩ := Option.bind_eq_some_iff.mp binds
  obtain ⟨target, -, binds⟩ := Option.bind_eq_some_iff.mp binds
  obtain ⟨_, -, binds⟩ := Option.bind_eq_some_iff.mp binds
  obtain ⟨text, itsBody, binds⟩ := Option.bind_eq_some_iff.mp binds
  obtain ⟨key, itsKey, binds⟩ := Option.bind_eq_some_iff.mp binds
  cases binds
  exact ⟨itsKey, itsBody⟩

-- The calls of the ledger

/-- What `ingest_inbound` leaves, a new message or one that was there. -/
structure Ingested (before after : Database) (id : Id) (envelope : TransportEnvelope)
    (body : String) (event : InboundEvent)
    : Prop where
  found : after.inbound? event.id = some event
  dedupeKey : event.envelope.dedupeKey = envelope.dedupeKey
  new
    : (∀ earlier ∈ before.inboundEvents, earlier.envelope.dedupeKey ≠ envelope.dedupeKey)
      → event = ⟨id, envelope, utf8Safe body⟩
  jobs : after.jobs = before.jobs

/-- Alone, an ingest ends with the event of its key. -/
theorem ingestInbound_alone {database : Database} (consistent : Consistent database) {id : Id}
    (fresh : database.inbound? id = none) (envelope : TransportEnvelope) (body : String)
    : ∃ event after,
        store.alone (ingestInbound id envelope body) database = .ok (event.id, after)
        ∧ Ingested database after id envelope body event := by
  let row : InboundEvent := ⟨id, envelope, utf8Safe body⟩
  have inserted := @alone_insert database store
    [Key.inboundEntry id, .dedupeEntry envelope.dedupeKey] (.insertInbound row)
  cases known
      : database.inboundEvents.find?
          (fun event => event.envelope.dedupeKey = envelope.dedupeKey) with
  | none =>
      have absent
          : ([Key.inboundEntry id, .dedupeEntry envelope.dedupeKey].all
              fun key => !store.present key database) = true := by
        simpa [store, storeWith, Key.present, fresh] using known
      rw [if_pos absent] at inserted
      refine ⟨row, store.apply (.insertInbound row) database,
        (Store.alone_then inserted _).trans rfl, ?_, rfl, fun _ => rfl, rfl⟩
      refine (lookup_append row).trans ?_
      rw [show lookup InboundEvent.id row.id database.inboundEvents = none from fresh, if_pos rfl]
      rfl
  | some event =>
      have mem := List.mem_of_find?_eq_some known
      have same : event.envelope.dedupeKey = envelope.dedupeKey := by
        simpa using List.find?_some known
      have taken
          : ¬ ([Key.inboundEntry id, .dedupeEntry envelope.dedupeKey].all
              fun key => !store.present key database) = true := by
        intro absent
        simp only [store, storeWith, Key.present, List.all_cons, Bool.and_eq_true,
          Bool.not_eq_true', List.any_eq_false] at absent
        exact absent.2.1 event mem (by simpa using same)
      rw [if_neg taken] at inserted
      refine ⟨event, database, ?_, lookup_of_mem consistent.uniqueInbound mem, same,
        fun new => absurd same (new event mem), rfl⟩
      refine (Store.alone_then inserted _).trans ?_
      simp only [Bool.false_eq_true, if_false, alone_look, known, alone_lock]
      rfl

/-- What `submit_job` leaves of a submission without parent. -/
structure Submitted (before after : Database) (draws : Draws) (submission : Submission) (job : Job)
    : Prop where
  mem : job ∈ after.jobs
  inboundEventId : job.inboundEventId = submission.inboundEventId
  drawn
    : job.id = draws.job → job = submission.job draws.job draws.job 0 .queued draws.now
  direct : submission.inboundEventId = none → job.id = draws.job
  inboundEvents : after.inboundEvents = before.inboundEvents

/-- The foreign key of a job holds where the event is known. -/
theorem requireInbound_alone {database : Database} {inboundEventId : Option Id}
    (known : ∀ event ∈ inboundEventId, (database.inbound? event).isSome = true)
    : store.alone (requireInbound inboundEventId) database = .ok ((), database) := by
  cases inboundEventId with
  | none => rfl
  | some event =>
      unfold requireInbound
      rw [alone_look, if_pos (known event rfl)]
      rfl

/-- Alone, the submission of a root job inserts it. -/
theorem submitJob_alone {database : Database} {draws : Draws} {submission : Submission}
    (root : submission.parentId = none)
    (known : ∀ event ∈ submission.inboundEventId, (database.inbound? event).isSome = true)
    (fresh : (Key.jobEntry draws.job).present database = false)
    : ∃ job after,
        store.alone (submitJob submission draws.job draws.now) database = .ok (some job.id, after)
        ∧ Submitted database after draws submission job := by
  let row := submission.job draws.job draws.job 0 .queued draws.now
  have inserted := @alone_insert database store row.entries (.insertJob row)
  have begins : submitJob submission draws.job draws.now = insertQueued row := by
    unfold submitJob
    rw [root]
  rw [begins]
  by_cases absent : (row.entries.all fun key => !store.present key database) = true
  · rw [if_pos absent] at inserted
    have required := @requireInbound_alone (store.apply (.insertJob row) database)
      row.inboundEventId known
    refine ⟨row, store.apply (.insertJob row) database, ?_, ?_⟩
    · refine (Store.alone_then inserted _).trans ?_
      simp only [if_true]
      exact (Store.alone_then required _).trans rfl
    · exact ⟨List.mem_append_right _ (List.mem_singleton_self row), rfl, fun _ => rfl,
        fun _ => rfl, rfl⟩
  · rw [if_neg absent] at inserted
    -- The drawn id is new, so what is taken is the entry of the job's event.
    obtain ⟨event, ofEvent, job, found⟩
        : ∃ event,
            submission.inboundEventId = some event
            ∧ ∃ job,
                database.jobs.find? (fun other => other.inboundEventId = some event)
                = some job := by
      cases ofEvent : submission.inboundEventId with
      | none =>
          have entries : row.entries = [Key.jobEntry draws.job] := by
            show Key.jobEntry draws.job :: (submission.inboundEventId.map _).toList = _
            rw [ofEvent]
            rfl
          refine absurd ?_ absent
          rw [entries, List.all_cons, List.all_nil, Bool.and_true]
          exact congrArg not fresh
      | some event =>
          refine ⟨event, rfl, Option.isSome_iff_exists.mp ?_⟩
          have entries : row.entries = [Key.jobEntry draws.job, .jobOfInbound event] := by
            show Key.jobEntry draws.job :: (submission.inboundEventId.map _).toList = _
            rw [ofEvent]
            rfl
          by_contra missing
          refine absent ?_
          rw [entries, List.all_cons, List.all_cons, List.all_nil, Bool.and_true,
            Bool.and_eq_true]
          refine ⟨congrArg not fresh, ?_⟩
          show (!database.jobs.any _) = true
          simpa [List.find?_isSome] using missing
    have mem := List.mem_of_find?_eq_some found
    have same : job.inboundEventId = some event := by simpa using List.find?_some found
    have other : job.id ≠ draws.job := by
      intro same
      have gone : lookup Job.id draws.job database.jobs = none := by
        simpa [Key.present, Database.job?] using fresh
      exact lookup_none.mp gone job mem same
    refine ⟨job, database, ?_, mem, same.trans ofEvent.symm, fun drawn => absurd drawn other,
      fun direct => ?_, rfl⟩
    · refine (Store.alone_then inserted _).trans ?_
      have itsEvent : row.inboundEventId = some event := ofEvent
      simp only [Bool.false_eq_true, if_false, alone_look, itsEvent, found]
      rfl
    · rw [ofEvent] at direct
      cases direct

-- What is stored

/-- Validation covers what the reply target leaves open. -/
theorem InboundIn.fits_iff {message : InboundIn} (clean : message.NoNul) {principal : Points}
    {event : Id}
    : message.bindIngest.isSome = true ∧ (message.submission principal event).isSome = true
      ↔ message.Fits principal := by
  have aimed : 0 ∉ message.target ↔ ∀ target ∈ message.replyTarget, 0 ∉ target := by
    unfold InboundIn.target
    have separator : (0 : Text.CodePoint) ∉ points ":" := by decide +kernel
    rcases message.replyTarget with _ | _ | ⟨first, rest⟩
    · simp [clean.transport, clean.senderId, separator]
    · simp [clean.transport, clean.senderId, separator]
    · simp
  unfold InboundIn.submission
  rw [bindIngest_isSome, bindSubmit_isSome, storable_createdBy]
  simp only [storable_iff, jsonbAccepts_iff, aimed]
  constructor
  · intro binds
    obtain ⟨⟨transport, account, sender, target, dedupe⟩, principal, agent, -, -, -⟩ := binds
    exact {
      replyTarget := target.1
      scalar := by simpa using ⟨transport.2, dedupe.2, agent.2⟩
      paired := by simpa using ⟨account.2, sender.2, target.2⟩
      principal := storable_iff.mpr principal
    }
  · intro fits
    have scalar := fits.scalar
    have paired := fits.paired
    simp only [List.mem_cons, List.not_mem_nil, or_false, forall_eq_or_imp, forall_eq]
      at scalar paired
    refine ⟨⟨⟨clean.transport, scalar.1⟩, ⟨clean.account, paired.1⟩, ⟨clean.senderId, paired.2.1⟩,
        ⟨fits.replyTarget, paired.2.2⟩, ⟨clean.dedupeKey, scalar.2.1⟩⟩,
      storable_iff.mp fits.principal, ⟨clean.toAgent, scalar.2.2⟩, ?_, ?_, ?_⟩
    · intro text mem
      cases mem
    · intro text mem
      cases mem
    · intro text mem
      cases mem

/-- A clean submission is bound exactly if it fits. -/
theorem SubmitIn.fits_iff {request : SubmitIn} (clean : request.NoNul) {principal : Points}
    : (request.submission principal).isSome = true ↔ request.Fits principal := by
  unfold SubmitIn.submission
  rw [bindSubmit_isSome, storable_createdBy]
  simp only [jsonbAccepts_iff]
  constructor
  · intro binds
    obtain ⟨principal, agent, context, repo, base⟩ := binds
    refine ⟨fun text mem => ?_, fun text mem => (context text mem).2, principal⟩
    rcases List.mem_cons.mp mem with rfl | mem
    · exact (storable_iff.mp agent).2
    rcases List.mem_append.mp mem with mem | mem
    · exact (storable_iff.mp (repo text (Option.mem_toList.mp mem))).2
    · exact (storable_iff.mp (base text (Option.mem_toList.mp mem))).2
  · intro fits
    refine ⟨fits.principal, ?_, ?_, ?_, ?_⟩
    · exact storable_iff.mpr ⟨clean.toAgent, fits.scalar _ List.mem_cons_self⟩
    · exact fun text mem => ⟨clean.context text mem, fits.context text mem⟩
    · exact fun text mem => storable_iff.mpr ⟨clean.repoId text mem,
        fits.scalar _ (.tail _ (List.mem_append_left _ (Option.mem_toList.mpr mem)))⟩
    · exact fun text mem => storable_iff.mpr ⟨clean.baseRef text mem,
        fits.scalar _ (.tail _ (List.mem_append_right _ (Option.mem_toList.mpr mem)))⟩

/-- The message has its event, and the job whose id was answered is the event's; both hold what
was sent, unless the message was there before.
-/
def InboundIn.Stored (message : InboundIn) (draws : Draws) (before after : Database) (jobId : Id)
    : Prop :=
  ∃ event ∈ after.inboundEvents,
    ∃ job ∈ after.jobs,
      job.id = jobId
      ∧ job.inboundEventId = some event.id
      ∧ bindText message.dedupeKey = some event.envelope.dedupeKey
      ∧ ((∀ earlier ∈ before.inboundEvents,
            bindText message.dedupeKey ≠ some earlier.envelope.dedupeKey)
          → bindText (utf8SafePoints message.body) = some event.body)
      ∧ (jobId = draws.job
          → bindText (utf8SafePoints message.body) = some job.body
            ∧ bindText message.toAgent = some job.toAgent)

/-- The job is queued with what was sent. -/
def SubmitIn.Stored (request : SubmitIn) (after : Database) (jobId : Id) : Prop :=
  ∃ job ∈ after.jobs,
    job.id = jobId
    ∧ job.status = .queued
    ∧ bindText (utf8SafePoints request.prompt) = some job.body
    ∧ bindText request.toAgent = some job.toAgent
    ∧ bindNullable request.repoId = some job.repoId
    ∧ bindNullable request.baseRef = some job.baseRef

section Served

variable (libraries : Libraries) (principal : Points) (draws : Draws)

/-- A body that the model of `POST /inbound` accepts is stored and answered with its job. -/
def InboundServed (meanwhile : Database → Database) (body : Value) (database : Database)
    : Prop :=
  ∀ message,
    InboundIn.validate libraries body = some message
    → ∃ jobId after,
        postInbound libraries principal draws meanwhile body database
          = (.created (some jobId), after)
        ∧ message.Stored draws database after jobId

/-- A body that the model of `POST /jobs` accepts is stored and answered with its job. -/
def JobsServed (body : Value) (database : Database) : Prop :=
  ∀ request,
    SubmitIn.validate libraries body = some request
    → ∃ jobId after,
        postJobs libraries principal draws body database = (.created (some jobId), after)
        ∧ request.Stored after jobId

end Served

section Served

variable {libraries : Libraries} {principal : Points} {draws : Draws} {body : Value}
  {database : Database}

/-- A call whose parameters do not bind answers with an internal error. -/
theorem submitCall_created {submission : Option Submission} {jobId : Id} {after : Database}
    (created : submitCall draws submission database = (.created (some jobId), after))
    : submission.isSome = true := by
  cases submission with
  | none => cases created
  | some submission => rfl

/-- A submission that is bound creates its job. -/
theorem submitCall_submits {submission : Submission} (root : submission.parentId = none)
    (known : ∀ event ∈ submission.inboundEventId, (database.inbound? event).isSome = true)
    (fresh : (Key.jobEntry draws.job).present database = false)
    : ∃ job after,
        submitCall draws (some submission) database = (.created (some job.id), after)
        ∧ Submitted database after draws submission job := by
  obtain ⟨job, after, ran, submitted⟩ := submitJob_alone root known fresh
  refine ⟨job, after, ?_, submitted⟩
  unfold submitCall
  simp only [ran]

/-- `POST /inbound` serves what it validates exactly if that fits. -/
theorem inboundServed_iff {meanwhile : Database → Database}
    (others : ∀ rows, Evolves (· ≠ .jobEntry draws.job) rows (meanwhile rows))
    (consistent : Consistent database) (freshEvent : database.inbound? draws.event = none)
    (freshJob : database.job? draws.job = none)
    : InboundServed libraries principal draws meanwhile body database
      ↔ ∀ message,
          InboundIn.validate libraries body = some message → message.Fits principal := by
  refine forall_congr' fun message => forall_congr' fun accepted => ?_
  have clean := InboundIn.validate_noNul accepted
  unfold postInbound
  simp only [accepted]
  cases ingest : message.bindIngest with
  | none =>
      constructor
      · intro served
        obtain ⟨jobId, after, created, -⟩ := served
        cases created
      · intro fits
        have binds := ((@InboundIn.fits_iff message clean principal 0).mpr fits).1
        rw [ingest] at binds
        cases binds
  | some parameters =>
      obtain ⟨envelope, text⟩ := parameters
      obtain ⟨itsKey, itsBody⟩ := bindIngest_columns ingest
      obtain ⟨event, rows, ran, ingested⟩ :=
        ingestInbound_alone consistent freshEvent envelope text
      simp only [ran]
      have fits := @InboundIn.fits_iff message clean principal event.id
      rw [ingest, Option.isSome_some, eq_self, true_and] at fits
      rw [← fits]
      constructor
      · intro served
        obtain ⟨jobId, after, created, -⟩ := served
        exact submitCall_created created
      · intro binds
        obtain ⟨submission, submits⟩ := Option.isSome_iff_exists.mp binds
        obtain ⟨root, itsEvent, itsPrompt, itsAgent, -, -⟩ := bindSubmit_columns submits
        have later := others rows
        have stays : (meanwhile rows).inbound? event.id = some event :=
          later.inbound ingested.found
        have free : (Key.jobEntry draws.job).present rows = false := by
          show (lookup Job.id draws.job rows.jobs).isSome = false
          rw [ingested.jobs]
          exact congrArg Option.isSome freshJob
        obtain ⟨job, after, created, submitted⟩ := @submitCall_submits draws (meanwhile rows)
          submission root (by simp [itsEvent, stays]) (later.absent (fun other => other rfl) free)
        rw [submits]
        refine ⟨job.id, after, created, event, ?_, job, submitted.mem, rfl, ?_, ?_, ?_, ?_⟩
        · rw [submitted.inboundEvents]
          exact lookup_mem stays
        · rw [submitted.inboundEventId, itsEvent]
        · rw [ingested.dedupeKey, itsKey]
        · intro new
          rw [ingested.new fun earlier mem same => new earlier mem (by rw [itsKey, same])]
          rw [itsBody, utf8Safe_bound itsBody]
        · intro drawn
          rw [submitted.drawn drawn]
          exact ⟨itsPrompt.trans (congrArg some (utf8Safe_bound itsPrompt).symm), itsAgent⟩

/-- So does `POST /jobs`. -/
theorem jobsServed_iff (freshJob : database.job? draws.job = none)
    : JobsServed libraries principal draws body database
      ↔ ∀ request,
          SubmitIn.validate libraries body = some request → request.Fits principal := by
  refine forall_congr' fun request => forall_congr' fun accepted => ?_
  rw [← SubmitIn.fits_iff (SubmitIn.validate_noNul accepted)]
  unfold postJobs
  simp only [accepted]
  constructor
  · intro served
    obtain ⟨jobId, after, created, -⟩ := served
    exact submitCall_created created
  · intro binds
    obtain ⟨submission, submits⟩ := Option.isSome_iff_exists.mp binds
    obtain ⟨root, noEvent, itsPrompt, itsAgent, itsRepo, itsBase⟩ := bindSubmit_columns submits
    have free : (Key.jobEntry draws.job).present database = false :=
      congrArg Option.isSome freshJob
    obtain ⟨job, after, created, submitted⟩ := @submitCall_submits draws database
      submission root (by simp [noEvent]) free
    have row := submitted.drawn (submitted.direct noEvent)
    rw [submits]
    refine ⟨job.id, after, created, job, submitted.mem, rfl, ?_, ?_, ?_, ?_, ?_⟩
    · rw [row]
      rfl
    · rw [row]
      exact itsPrompt.trans (congrArg some (utf8Safe_bound itsPrompt).symm)
    · rw [row]
      exact itsAgent
    · rw [row]
      exact itsRepo
    · rw [row]
      exact itsBase

/-- The bodies that are accepted are stored, if their texts fit where validation does not look. -/
theorem requests_stored_iff (libraries : Libraries) (principal : Points) (draws : Draws)
    {meanwhile : Database → Database}
    (others : ∀ rows, Evolves (· ≠ .jobEntry draws.job) rows (meanwhile rows))
    {database : Database} (consistent : Consistent database)
    (freshEvent : database.inbound? draws.event = none)
    (freshJob : database.job? draws.job = none) (body : Value)
    : (InboundServed libraries principal draws meanwhile body database
        ↔ ∀ message,
            InboundIn.validate libraries body = some message → message.Fits principal)
      ∧ (JobsServed libraries principal draws body database
        ↔ ∀ request,
            SubmitIn.validate libraries body = some request → request.Fits principal) :=
  ⟨inboundServed_iff others consistent freshEvent freshJob, jobsServed_iff freshJob⟩

end Served

/-- Libraries that read no text with a surrogate, as pydantic does. -/
def sampleLibraries : Libraries where
  readable text := text.all (fun point => !isSurrogate point)
  descends _ := true

def sampleDraws : Draws :=
  ⟨1, 2, 10⟩

/-- A message with this reply target. -/
def sampleMessage (replyTarget : Points) : Value :=
  .object [
    (points "sender_id", .text (points "user")),
    (points "dedupe_key", .text (points "update-1")),
    (points "body", .text (points "hello")),
    (points "to_agent", .text (points "echo")),
    (points "reply_target", .text replyTarget)
  ]

/-- A submission with this text in its context. -/
def sampleSubmission (text : Points) : Value :=
  .object [
    (points "to_agent", .text (points "echo")),
    (points "prompt", .text (points "hello")),
    (points "context", .object [(points "note", .array [.text text])])
  ]

theorem requests_stored_iff_sample
    : InboundServed sampleLibraries (points "alice") sampleDraws id
        (sampleMessage (points "chat")) .empty
      ∧ JobsServed sampleLibraries (points "alice") sampleDraws
        (sampleSubmission (points "chat")) .empty := by
  have stored := @requests_stored_iff sampleLibraries (points "alice") sampleDraws id
    (fun rows => Evolves.refl _ rows) .empty Consistent.empty rfl rfl
  have alice : Storable (points "alice") := by decide +kernel
  constructor
  · refine (stored (sampleMessage (points "chat"))).1.mpr fun message accepted => ?_
    have parsed
        : InboundIn.validate sampleLibraries (sampleMessage (points "chat"))
          = some ⟨points "user", points "update-1", points "hello", points "echo", points "http",
              points "default", some (points "chat")⟩ := by
      decide +kernel
    cases accepted.symm.trans parsed
    have storable
        : ∀ text ∈ [points "http", points "update-1", points "echo", points "chat"],
            Storable text := by
      decide +kernel
    exact {
      replyTarget := fun target mem => by
        cases mem
        exact (storable_iff.mp (storable _ (by simp))).1
      scalar := fun text mem => by
        have among
            : text ∈ [points "http", points "update-1", points "echo"] ++ [points "chat"] :=
          List.mem_append_left _ mem
        exact (storable_iff.mp (storable text among)).2
      paired := by decide +kernel
      principal := alice
    }
  · refine (stored (sampleSubmission (points "chat"))).2.mpr fun request accepted => ?_
    have parsed
        : (SubmitIn.validate sampleLibraries (sampleSubmission (points "chat"))).map
            (fun request =>
              (request.toAgent :: (request.repoId.toList ++ request.baseRef.toList),
                request.context.strings))
          = some ([points "echo"], [points "note", points "chat"]) := by
      decide +kernel
    rw [accepted, Option.map_some, Option.some_inj, Prod.mk.injEq] at parsed
    have agent : Storable (points "echo") := by decide +kernel
    refine ⟨?_, ?_, alice⟩
    · rw [parsed.1]
      intro text mem
      rw [List.mem_singleton.mp mem]
      exact (storable_iff.mp agent).2
    · rw [parsed.2]
      decide +kernel

/-- A NUL in the reply target, or a lone surrogate in the context, is accepted and ends in an
internal error.
-/
theorem accepted_not_stored
    : ¬ InboundServed sampleLibraries (points "alice") sampleDraws id
        (sampleMessage [0x61, 0x00, 0x62]) .empty
      ∧ ¬ JobsServed sampleLibraries (points "alice") sampleDraws (sampleSubmission [0xD800]) .empty
      ∧ (postInbound sampleLibraries (points "alice") sampleDraws id
          (sampleMessage [0x61, 0x00, 0x62]) .empty).1 = .internalError
      ∧ (postJobs sampleLibraries (points "alice") sampleDraws (sampleSubmission [0xD800])
          .empty).1 = .internalError := by
  have inbound
      : (postInbound sampleLibraries (points "alice") sampleDraws id
          (sampleMessage [0x61, 0x00, 0x62]) .empty).1 = .internalError := by
    decide +kernel
  have jobs
      : (postJobs sampleLibraries (points "alice") sampleDraws (sampleSubmission [0xD800])
          .empty).1 = .internalError := by
    decide +kernel
  refine ⟨fun served => ?_, fun served => ?_, inbound, jobs⟩
  · have accepted
        : (InboundIn.validate sampleLibraries
          (sampleMessage [0x61, 0x00, 0x62])).isSome = true := by
      decide +kernel
    obtain ⟨message, accepted⟩ := Option.isSome_iff_exists.mp accepted
    obtain ⟨jobId, after, created, -⟩ := served message accepted
    rw [created] at inbound
    cases inbound
  · have accepted
        : (SubmitIn.validate sampleLibraries (sampleSubmission [0xD800])).isSome = true := by
      decide +kernel
    obtain ⟨request, accepted⟩ := Option.isSome_iff_exists.mp accepted
    obtain ⟨jobId, after, created, -⟩ := served request accepted
    rw [created] at jobs
    cases jobs

end Api
