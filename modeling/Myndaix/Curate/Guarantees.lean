import Myndaix.Curate.Surroundings

/-! Promoting never clobbers: whatever a human does to the live corpus and whichever call fails,
only accepted targets are written, and the journal names what landed unless a write failed half way.
-/

namespace Curate

open Interaction Text

variable {Digest : Type} [DecidableEq Digest] {strings : Strings} {sha256 : Bytes → Digest}
  {staging : Staging} {corpus : List (Str × Bytes)} {ch : Changes} {root : Str}
  {disk after : Disk} {calls earlier : List Call}

-- What a promotion may ask

section Permits

variable (strings sha256 staging corpus ch)

/-- Files are created, filled, copied and moved only where an accepted target asks for it. -/
def permits (earlier : List Call) (disk : Disk) : Query → Prop
  | .create rel => ∃ data, AcceptedTarget strings sha256 staging corpus ch rel data
  | .write inode data =>
      MadeBy earlier inode ∧ ∃ rel, AcceptedTarget strings sha256 staging corpus ch rel data
  | .copyIndex => ∃ data, AcceptedTarget strings sha256 staging corpus ch INDEX data
  | .replaceIndex temporary =>
      Rechecked corpus earlier temporary
      ∧ ∃ data, AcceptedTarget strings sha256 staging corpus ch INDEX data
  | .writeJournal _ => disk.journal.isPrivate = true
  | _ => True

end Permits

/-- What was made stays made. -/
theorem MadeBy.onward {inode : Nat} (made : MadeBy earlier inode) (call : Call)
    : MadeBy (earlier ++ [call]) inode := by
  obtain ⟨maker, mem, rest⟩ := made
  exact ⟨maker, List.mem_append_left _ mem, rest⟩

variable {call : Call} {record : Journal} {temporary : Str}

/-- A call that leaves the disk as it was. -/
theorem protected_same (same : call.after = call.before)
    : Protected strings sha256 staging corpus ch earlier call where
  entries name changed := absurd (congrFun (congrArg Disk.entries same) name) changed
  bytes inode changed := absurd (congrFun (congrArg Disk.bytes same) inode) changed

/-- A call that writes a file of its own under a new name, to the beginning of accepted bytes. -/
theorem protected_made {name rel : Str} {data written : Bytes} {inode : Nat}
    (unused : call.before.Unused inode) (isNew : call.before.entries name = none)
    (target : AcceptedTarget strings sha256 staging corpus ch rel data) (begins : written <+: data)
    (made : call.after = (call.before.fill inode written).link name (some (.file inode)))
    (asked
      : call.query = .copyIndex
        ∨ call.query = .create name
          ∧ ∃ data, AcceptedTarget strings sha256 staging corpus ch name data)
    : Protected strings sha256 staging corpus ch earlier call where
  entries other changed := by
    have isName : other = name := by
      by_contra different
      rw [made] at changed
      exact changed (Function.update_of_ne different _ _)
    subst isName
    rcases asked with isCopy | ⟨isCreate, data, accepted⟩
    · exact .inr (.inr (.inl ⟨isCopy, isNew⟩))
    · exact .inl ⟨data, isCreate, isNew, accepted⟩
  bytes other changed := by
    have isInode : other = inode := by
      by_contra different
      rw [made] at changed
      exact changed (Function.update_of_ne different _ _)
    subst isInode
    have entry : call.after.entries name = some (.file other) := by
      rw [made]
      exact Function.update_self _ _ _
    have holds : call.after.bytes other = written := by
      rw [made]
      exact Function.update_self _ _ _
    exact ⟨⟨call, by simp, unused, name, entry⟩, rel, data, target, holds ▸ begins⟩

/-- A private journal is written without touching the corpus, and stays private. -/
theorem journal_answered {result : Except Str Unit} (isPrivate : disk.journal.isPrivate = true)
    (answered : JournalAnswers record disk result after)
    : (after.entries = disk.entries ∧ after.bytes = disk.bytes)
      ∧ after.journal.isPrivate = true
      ∧ (result = .ok () → after.journal = .own (some record)) := by
  obtain ⟨entries, bytes, place⟩ := disk
  cases place with
  | absent | own =>
      rcases answered with ⟨rfl, rfl⟩ | ⟨⟨error, rfl⟩, rfl | rfl⟩
      · exact ⟨⟨rfl, rfl⟩, rfl, fun _ => rfl⟩
      · exact ⟨⟨rfl, rfl⟩, rfl, nofun⟩
      · exact ⟨⟨rfl, rfl⟩, rfl, nofun⟩
  | directory =>
      obtain ⟨⟨error, rfl⟩, rfl⟩ := answered
      exact ⟨⟨rfl, rfl⟩, rfl, nofun⟩
  | link | hardLink => cases isPrivate

/-- What is permitted is protected, call by call. -/
theorem protected_of_permits
    (permitted : permits strings sha256 staging corpus ch earlier call.before call.query)
    (answered : Answers staging call.query call.before call.answer call.after)
    : Protected strings sha256 staging corpus ch earlier call := by
  obtain ⟨before, query, answer, after⟩ := call
  cases query with
  | git => exact protected_same answered
  | inRoot => exact protected_same answered
  | «exists» => exact protected_same answered.1
  | readLive => exact protected_same answered.1
  | readStaged => exact protected_same answered.1
  | create rel =>
      obtain ⟨data, accepted⟩ := permitted
      cases answer with
      | ok inode =>
          obtain ⟨isNew, unused, made⟩ := answered
          exact protected_made unused isNew accepted List.nil_prefix made
            (.inr ⟨rfl, data, accepted⟩)
      | error => exact protected_same answered
  | write inode data =>
      obtain ⟨made, rel, accepted⟩ := permitted
      obtain ⟨written, begins, -, same⟩ := answered
      obtain rfl : after = before.fill inode written := same
      refine { entries := fun name changed => absurd rfl changed, bytes := fun other changed => ?_ }
      have isInode : other = inode := by
        by_contra different
        exact changed (Function.update_of_ne different _ _)
      subst isInode
      have holds : (before.fill other written).bytes other = written := Function.update_self _ _ _
      have starts : (before.fill other written).bytes other <+: data := by
        rw [holds]
        exact begins
      exact ⟨made.onward _, rel, data, accepted, starts⟩
  | copyIndex =>
      obtain ⟨data, accepted⟩ := permitted
      obtain ⟨isNew, ⟨_, same⟩ | ⟨copied, inode, written, staged, unused, begins, _, made⟩⟩ :=
        answered
      · exact protected_same same
      · obtain rfl := Option.some.inj (staged.symm.trans accepted.2.1)
        exact protected_made unused isNew accepted begins made (.inl rfl)
  | replaceIndex temporary =>
      obtain ⟨rechecked, data, accepted⟩ := permitted
      cases answer with
      | ok =>
          obtain ⟨entry, _, same⟩ := answered
          obtain rfl : after = (before.link temporary none).link INDEX (some entry) := same
          refine
            { entries := fun name changed => ?_, bytes := fun inode changed => absurd rfl changed }
          by_cases isIndex : name = INDEX
          · exact .inr (.inl ⟨temporary, data, rfl, isIndex, rechecked, accepted⟩)
          · have unmoved
                : ((before.link temporary none).link INDEX (some entry)).entries name
                  = (before.link temporary none).entries name :=
              Function.update_of_ne isIndex _ _
            have isTemporary : name = temporary := by
              by_contra different
              exact changed (unmoved.trans (Function.update_of_ne different _ _))
            subst isTemporary
            exact .inr (.inr (.inr
              ⟨rfl, unmoved.trans (Function.update_self _ _ _), rechecked⟩))
      | error => exact protected_same answered
  | writeJournal record =>
      have isPrivate : before.journal.isPrivate = true := permitted
      obtain ⟨kept, -⟩ := journal_answered isPrivate answered
      exact
        { entries := fun name changed => absurd (congrFun kept.1 name) changed
          bytes := fun inode changed => absurd (congrFun kept.2 inode) changed }

-- Where a promotion stands

/-- What the journal lists, if the last write of it succeeded. -/
def Lists (listed : Option (List Str)) (calls : List Call) (disk : Disk) : Prop :=
  match listed with
  | none => calls.any writesJournal = false
  | some names =>
      calls.any writesJournal = true
      ∧ ∃ record, disk.journal = .own (some record) ∧ record.applied = names

/-- These targets have been applied, something else may have been left, a call may have failed half
way, and the journal lists these names.
-/
structure Standing (applied : List Str) (left : List Landing) (broken : Bool)
    (listed : Option (List Str)) (disk : Disk) (calls : List Call)
    : Prop where
  isPrivate : disk.journal.isPrivate = true
  lands : landed calls = applied.map .file ++ left
  faults : faultless calls = !broken
  idle : landed calls = [] → ∀ call ∈ calls, Idle call
  lists : journalled calls = true → Lists listed calls disk

namespace Standing

variable {applied : List Str} {left : List Landing} {broken : Bool} {listed : Option (List Str)}

/-- A human leaves the journal alone. -/
theorem moved (standing : Standing applied left broken listed disk calls)
    (same : after.journal = disk.journal)
    : Standing applied left broken listed after calls where
  isPrivate := same ▸ standing.isPrivate
  lands := standing.lands
  faults := standing.faults
  idle := standing.idle
  lists good := by
    have lists := standing.lists good
    cases listed with
    | none => exact lists
    | some names => exact ⟨lists.1, same ▸ lists.2⟩

/-- A call that lands nothing and leaves the journal alone. -/
theorem quiet (standing : Standing applied left broken listed disk calls)
    (lands : land (landed calls) call = landed calls) (fine : faulty call = false)
    (silent : writesJournal call = false) (idle : landed calls = [] → Idle call)
    (same : after.journal = disk.journal)
    : Standing applied left broken listed after (calls ++ [call]) where
  isPrivate := same ▸ standing.isPrivate
  lands := by rw [landed_append, lands, standing.lands]
  faults := by simp [fine, standing.faults]
  idle isEmpty other mem := by
    rw [landed_append, lands] at isEmpty
    rcases List.mem_append.mp mem with earlier | last
    · exact standing.idle isEmpty other earlier
    · rw [List.mem_singleton] at last
      exact last ▸ idle isEmpty
  lists good := by
    rw [journalled_silent calls silent] at good
    have lists := standing.lists good
    cases listed with
    | none => simpa [Lists, silent] using lists
    | some names => exact ⟨by simp [lists.1], same ▸ lists.2⟩

/-- A call that puts something into the corpus. -/
theorem landing (standing : Standing applied left broken listed disk calls) (call : Call)
    {applied' : List Str} {left' : List Landing} {broken' : Bool}
    (lands : land (landed calls) call = applied'.map .file ++ left')
    (some_ : applied'.map Landing.file ++ left' ≠ [])
    (faults : (faultless calls && !faulty call) = !broken')
    (silent : writesJournal call = false)
    (same : after.journal = disk.journal)
    : Standing applied' left' broken' listed after (calls ++ [call]) where
  isPrivate := same ▸ standing.isPrivate
  lands := by rw [landed_append, lands]
  faults := by rw [faultless_append, faults]
  idle isEmpty := by
    rw [landed_append, lands] at isEmpty
    exact absurd isEmpty some_
  lists good := by
    rw [journalled_silent calls silent] at good
    have lists := standing.lists good
    cases listed with
    | none => simpa [Lists, silent] using lists
    | some names => exact ⟨by simp [lists.1], same ▸ lists.2⟩

/-- A created file counts as applied from the start. -/
theorem created (standing : Standing applied [] false listed disk calls) (rel : Str) (inode : Nat)
    (same : after.journal = disk.journal)
    : Standing (applied ++ [rel]) [] false listed after
        (calls ++ [⟨disk, .create rel, .ok inode, after⟩]) :=
  standing.landing _ (by simp [land, standing.lands]) (by simp) (by simp [faulty, standing.faults])
    rfl same

/-- A write makes the file that was applied last. -/
theorem written {rel : Str} (standing : Standing (applied ++ [rel]) [] false listed disk calls)
    (inode : Nat) (data : Bytes) (same : after.journal = disk.journal)
    : Standing (applied ++ [rel]) [] false listed after
        (calls ++ [⟨disk, .write inode data, .ok (), after⟩]) :=
  standing.landing _ (by simpa [land] using standing.lands) (by simp)
    (by simp [faulty, standing.faults]) rfl same

/-- If its write fails, the created file is left without counting as applied. -/
theorem torn {rel : Str} (standing : Standing (applied ++ [rel]) [] false listed disk calls)
    (inode : Nat) (data : Bytes) (error : Str) (same : after.journal = disk.journal)
    : Standing applied [.file rel] true listed after
        (calls ++ [⟨disk, .write inode data, .error error, after⟩]) :=
  standing.landing _ (by simpa [land] using standing.lands) (by simp) (by simp [faulty]) rfl same

/-- A copy of the index leaves a temporary name. -/
theorem copied (standing : Standing applied [] false listed disk calls)
    (there : (after.entries temporary).isSome = true) (same : after.journal = disk.journal)
    : Standing applied [.temporary temporary] false listed after
        (calls ++ [⟨disk, .copyIndex, (temporary, .ok ()), after⟩]) :=
  standing.landing _ (by simp [land, there, standing.lands]) (by simp)
    (by simp [faulty, standing.faults]) rfl same

/-- A copy that fails can leave the temporary file. -/
theorem copyTorn (standing : Standing applied [] false listed disk calls) (error : Str)
    (there : (after.entries temporary).isSome = true) (same : after.journal = disk.journal)
    : Standing applied [.temporary temporary] true listed after
        (calls ++ [⟨disk, .copyIndex, (temporary, .error error), after⟩]) :=
  standing.landing _ (by simp [land, there, standing.lands]) (by simp) (by simp [faulty, there])
    rfl same

/-- A copy that fails at once leaves nothing. -/
theorem uncopied (standing : Standing applied left broken listed disk calls) (error : Str)
    (absent : (after.entries temporary).isSome = false)
    (idle : after.entries = disk.entries ∧ after.bytes = disk.bytes)
    (same : after.journal = disk.journal)
    : Standing applied left broken listed after
        (calls ++ [⟨disk, .copyIndex, (temporary, .error error), after⟩]) :=
  standing.quiet (by simp [land, absent]) (by simp [faulty, absent]) rfl (fun _ => idle) same

/-- The replacement applies the index and takes the temporary name away. -/
theorem replaced (standing : Standing applied [.temporary temporary] false listed disk calls)
    (same : after.journal = disk.journal)
    : Standing (applied ++ [INDEX]) [] false listed after
        (calls ++ [⟨disk, .replaceIndex temporary, .ok (), after⟩]) := by
  refine standing.landing _ ?_ (by simp) (by simp [faulty, standing.faults]) rfl same
  simp only [land, standing.lands]
  simp [List.filter_append, List.filter_map, Function.comp_def]

/-- A rename that fails leaves the temporary file. -/
theorem replaceTorn (standing : Standing applied [.temporary temporary] false listed disk calls)
    (error : Str) (same : after.journal = disk.journal)
    : Standing applied [.temporary temporary] true listed after
        (calls ++ [⟨disk, .replaceIndex temporary, .error error, after⟩]) :=
  standing.landing _ (by simpa [land] using standing.lands) (by simp) (by simp [faulty]) rfl same

/-- Writing the journal lists what has been applied; if the write fails nothing is promised. -/
theorem journals (standing : Standing applied left broken listed disk calls)
    {result : Except Str Unit} (answered : JournalAnswers record disk result after)
    (names : record.applied = applied)
    : Standing applied left broken (some applied) after
        (calls ++ [⟨disk, .writeJournal record, result, after⟩]) where
  isPrivate := (journal_answered standing.isPrivate answered).2.1
  lands := by
    rw [landed_append]
    exact standing.lands
  faults := by
    rw [faultless_append, standing.faults]
    exact Bool.and_true _
  idle isEmpty other mem := by
    rw [landed_append] at isEmpty
    rcases List.mem_append.mp mem with earlier | last
    · exact standing.idle isEmpty other earlier
    · rw [List.mem_singleton] at last
      exact last ▸ (journal_answered standing.isPrivate answered).1
  lists good := by
    cases result with
    | ok =>
        have written := (journal_answered standing.isPrivate answered).2.2 rfl
        exact ⟨by simp [writesJournal], record, written, names⟩
    | error => simp [journalled, writesJournal, losesJournal] at good

/-- At the end the journal is exact if nothing but applied targets was left, and only then. -/
theorem exact_iff (standing : Standing applied left broken listed disk calls)
    (whole : broken = !left.isEmpty) (good : journalled calls = true) {ended : Ended}
    (lists : listed = some applied ∨ listed = none ∧ applied = [])
    (reports : ∀ notes, ended = .returned false notes → applied = [])
    : Exact calls ended disk ↔ faultless calls = true := by
  have same : faultless calls = true ↔ left = [] := by
    rw [standing.faults, whole, Bool.not_not, List.isEmpty_iff]
  have known := standing.lists good
  rw [same]
  constructor
  · intro isExact
    have journal := isExact.journal
    rw [standing.lands] at journal
    rcases lists with rfl | ⟨rfl, rfl⟩
    · obtain ⟨wrote, record, isRecord, names⟩ := known
      rw [if_pos wrote] at journal
      obtain ⟨other, isOther, lands⟩ := journal
      obtain rfl : record = other := by
        rw [isRecord] at isOther
        cases isOther
        rfl
      rw [names] at lands
      exact List.append_right_eq_self.mp lands
    · have silent : calls.any writesJournal = false := known
      rw [silent] at journal
      simpa using journal
  · intro isEmpty
    have lands := standing.lands
    rw [isEmpty, List.append_nil] at lands
    refine { journal := ?_, unchanged := fun notes returned => ?_ }
    · rcases lists with rfl | ⟨rfl, rfl⟩
      · obtain ⟨wrote, record, isRecord, names⟩ := known
        rw [if_pos wrote]
        exact ⟨record, isRecord, names ▸ lands⟩
      · have silent : calls.any writesJournal = false := known
        rw [silent]
        exact lands
    · rw [reports notes returned] at lands
      exact standing.idle lands

end Standing

-- The steps of a promotion

/-- What the classification promises of the changes that are promoted. -/
structure Accepts (strings : Strings) (sha256 : Bytes → Digest) (staging : Staging)
    (corpus : List (Str × Bytes)) (ch : Changes)
    : Prop where
  fresh : ∀ rel ∈ ch.newFiles, ∃ data, AcceptedTarget strings sha256 staging corpus ch rel data
  index
    : ch.indexModified = true →
        (∃ data, AcceptedTarget strings sha256 staging corpus ch INDEX data)
        ∧ ∃ base, corpus.lookup INDEX = some base

/-- A promotion with its history, where it may ask what is permitted. -/
abbrev Watched (strings : Strings) (sha256 : Bytes → Digest) (staging : Staging)
    (corpus : List (Str × Bytes)) (ch : Changes)
    : Setting Query Answer (Disk × List Call) :=
  (setting staging).recorded (permits strings sha256 staging corpus ch)

/-- The calls that only look. -/
def Query.isQuiet : Query → Bool
  | .git _ _ | .inRoot _ | .exists _ | .readLive _ | .readStaged _ => true
  | _ => false

variable {Result : Type} {applied : List Str} {left : List Landing} {broken : Bool}
  {listed : Option (List Str)} {post : Result → Disk × List Call → Prop}

/-- A quiet call changes nothing. -/
theorem quiet_same {query : Query} {answer : Answer query} (isQuiet : query.isQuiet = true)
    (answered : Answers staging query disk answer after)
    : after = disk := by
  cases query with
  | git | inRoot => exact answered
  | «exists» | readLive | readStaged => exact answered.1
  | create | write | copyIndex | replaceIndex | writeJournal => cases isQuiet

/-- Looking changes nothing. -/
theorem ensures_quiet {query : Query} (isQuiet : query.isQuiet = true)
    {next : Answer query → Run Result} (standing : Standing applied left broken listed disk calls)
    (continues
      : ∀ answer now,
          Answers staging query now answer now
          → Standing applied left broken listed now (calls ++ [⟨now, query, answer, now⟩])
          → (next answer).Ensures (Watched strings sha256 staging corpus ch) post
              (now, calls ++ [⟨now, query, answer, now⟩]))
    : (ask query >>= next).Ensures (Watched strings sha256 staging corpus ch) post
        (disk, calls) := by
  refine Program.Ensures.notes fun now moved => ⟨?_, fun answer later answered => ?_⟩
  · cases query with
    | git | inRoot | «exists» | readLive | readStaged => trivial
    | create | write | copyIndex | replaceIndex | writeJournal => cases isQuiet
  · obtain rfl := quiet_same isQuiet answered
    have idle : Idle ⟨later, query, answer, later⟩ := ⟨rfl, rfl⟩
    refine continues answer later answered (standing.quiet ?_ ?_ ?_ (fun _ => idle) moved)
    all_goals
      cases query with
      | git | inRoot | «exists» | readLive | readStaged => rfl
      | create | write | copyIndex | replaceIndex | writeJournal => cases isQuiet

/-- Writing the journal, whether it succeeds or fails. -/
theorem ensures_journal {next : Except Str Unit → Run Result}
    (standing : Standing applied left broken listed disk calls) (names : record.applied = applied)
    (continues
      : ∀ result after calls,
          Standing applied left broken (some applied) after calls
          → (next result).Ensures (Watched strings sha256 staging corpus ch) post (after, calls))
    : (ask (.writeJournal record) >>= next).Ensures (Watched strings sha256 staging corpus ch) post
        (disk, calls) := by
  refine Program.Ensures.notes fun now moved => ⟨?_, fun result later answered => ?_⟩
  · exact (standing.moved moved).isPrivate
  · exact continues result later _ ((standing.moved moved).journals answered names)

/-- A result is returned from a disk with the same journal. -/
theorem ensures_end {result : Result}
    (holds : ∀ later, later.journal = disk.journal → post result (later, calls))
    : (pure result : Run Result).Ensures (Watched strings sha256 staging corpus ch) post
        (disk, calls) :=
  Program.Ensures.noted holds

/-- The check of the paths only looks. -/
theorem firstUnsafe_ensures (rels : List Str)
    (standing : Standing applied left broken listed disk calls)
    : (firstUnsafe strings rels).Ensures (Watched strings sha256 staging corpus ch)
        (fun _ place => Standing applied left broken listed place.1 place.2) (disk, calls) := by
  induction rels generalizing disk calls with
  | nil => exact ensures_end fun later same => standing.moved same
  | cons rel rest ih =>
      unfold firstUnsafe
      split
      · exact ensures_end fun later same => standing.moved same
      · refine ensures_quiet rfl standing fun inRoot now _ standing => ?_
        split
        · exact ih standing
        · exact ensures_end fun later same => standing.moved same

/-- So does the check that the new files are new. -/
theorem firstPresent_ensures (rels : List Str)
    (standing : Standing applied left broken listed disk calls)
    : (firstPresent rels).Ensures (Watched strings sha256 staging corpus ch)
        (fun _ place => Standing applied left broken listed place.1 place.2) (disk, calls) := by
  induction rels generalizing disk calls with
  | nil => exact ensures_end fun later same => standing.moved same
  | cons rel rest ih =>
      refine ensures_quiet rfl standing fun found now _ standing => ?_
      split
      · exact ensures_end fun later same => standing.moved same
      · exact ih standing

/-- The last call read the live index to have this digest. -/
def LastRead (sha256 : Bytes → Digest) (digest : Digest) (calls : List Call) : Prop :=
  ∃ before now data later,
    calls = before ++ [⟨now, .readLive INDEX, .ok data, later⟩] ∧ digest = sha256 data

/-- What is compared of the index is what was read last. -/
theorem liveSha_ensures (standing : Standing applied left broken listed disk calls)
    : (liveSha sha256).Ensures (Watched strings sha256 staging corpus ch)
        (fun result place =>
          Standing applied left broken listed place.1 place.2
          ∧ ∀ digest, result = .ok (some digest) → LastRead sha256 digest place.2)
        (disk, calls) := by
  refine ensures_quiet rfl standing fun found now _ standing => ?_
  split
  · refine ensures_quiet rfl standing fun read now answered standing => ?_
    cases read with
    | ok data =>
        refine ensures_end fun later same => ⟨standing.moved same, fun digest isDigest => ?_⟩
        cases isDigest
        exact ⟨_, _, data, _, rfl, rfl⟩
    | error raised => exact ensures_end fun later same => ⟨standing.moved same, nofun⟩
  · exact ensures_end fun later same => ⟨standing.moved same, nofun⟩

/-- How the writes end: with everything applied and listed, or stopped with something left. -/
def Applies (result : List Str × Option Stop) (place : Disk × List Call) : Prop :=
  ∃ left broken listed,
    Standing result.1 left broken (some listed) place.1 place.2
    ∧ broken = !left.isEmpty
    ∧ ((∀ error, result.2 ≠ some (.failed error)) → left = [] ∧ listed = result.1)

/-- A run of the targets fails with what it has applied in the journal. -/
theorem applies_failed {error : Str} {listed : List Str} (disk : Disk) (calls : List Call)
    (standing : Standing applied left broken (some listed) disk calls)
    (whole : broken = !left.isEmpty)
    : ∀ later : Disk, later.journal = disk.journal
        → Applies (applied, some (.failed error)) (later, calls) :=
  fun _ same =>
    ⟨left, broken, listed, standing.moved same, whole, fun other => absurd rfl (other error)⟩

/-- One that ends well leaves nothing behind. -/
theorem applies_done {stop : Option Stop} (disk : Disk) (calls : List Call)
    (standing : Standing applied [] false (some applied) disk calls)
    : ∀ later : Disk, later.journal = disk.journal → Applies (applied, stop) (later, calls) :=
  fun _ same => ⟨[], false, applied, standing.moved same, rfl, fun _ => ⟨rfl, rfl⟩⟩

/-- New files are made one after another, by induction on them. -/
theorem createFiles_ensures (accepts : Accepts strings sha256 staging corpus ch) (rels : List Str)
    (fresh : ∀ rel ∈ rels, rel ∈ ch.newFiles)
    (standing : Standing applied [] false (some applied) disk calls)
    : (createFiles ch root rels applied).Ensures (Watched strings sha256 staging corpus ch)
        Applies (disk, calls) := by
  induction rels generalizing applied disk calls with
  | nil => exact ensures_end (applies_done disk calls standing)
  | cons rel rest ih =>
      refine ensures_quiet rfl standing fun read now staged standing => ?_
      cases read with
      | error raised => exact ensures_end (applies_failed _ _ standing rfl)
      | ok data =>
          obtain ⟨expected, accepted⟩ := accepts.fresh rel (fresh rel List.mem_cons_self)
          obtain rfl : data = expected :=
            Option.some.inj ((staged.2 data rfl).symm.trans accepted.2.1)
          refine Program.Ensures.notes fun found moved =>
            ⟨⟨data, accepted⟩, fun made after answered => ?_⟩
          have standing := standing.moved moved
          cases made with
          | error raised =>
              obtain rfl : after = found := answered
              exact ensures_end (applies_failed _ _
                (standing.quiet rfl rfl rfl (fun _ => ⟨rfl, rfl⟩) rfl) rfl)
          | ok inode =>
              obtain ⟨_, unused, made⟩ := answered
              have unmoved : after.journal = found.journal := made ▸ rfl
              -- From here on the file is there, and only the end of its write makes it applied.
              have landed := standing.created rel inode unmoved
              refine Program.Ensures.notes fun written moved => ⟨⟨?_, rel, accepted⟩, ?_⟩
              · refine ⟨_, List.mem_append_right _ List.mem_cons_self, unused, rel, ?_⟩
                rw [made]
                exact Function.update_self _ _ _
              · intro result after answered
                obtain ⟨bytes, _, _, same⟩ := answered
                have unmoved : after.journal = written.journal := same ▸ rfl
                cases result with
                | error raised =>
                    have broken := (landed.moved moved).torn inode data raised unmoved
                    exact ensures_end (applies_failed _ _ broken rfl)
                | ok =>
                    have whole := (landed.moved moved).written inode data unmoved
                    refine ensures_journal whole rfl fun result later calls standing => ?_
                    cases result with
                    | error raised => exact ensures_end (applies_failed _ _ standing rfl)
                    | ok =>
                        exact ih (fun rel mem => fresh rel (List.mem_cons_of_mem _ mem)) standing

omit [DecidableEq Digest] in
/-- The manifest has the digests of the corpus. -/
theorem lookup_manifestOf (name : Str)
    : (manifestOf sha256 corpus).lookup name = (corpus.lookup name).map sha256 := by
  induction corpus with
  | nil => rfl
  | cons file files ih =>
      obtain ⟨other, data⟩ := file
      by_cases same : name = other
      · subst same
        simp [manifestOf]
      · have differs : (name == other) = false := beq_eq_false_iff_ne.mpr same
        simpa [manifestOf, List.lookup_cons, differs] using ih

/-- The index is replaced only if it is as it was staged. -/
theorem publishIndex_ensures (separates : Function.Injective sha256)
    (accepts : Accepts strings sha256 staging corpus ch) (modified : ch.indexModified = true)
    (standing : Standing applied [] false (some applied) disk calls)
    : (publishIndex sha256 (manifestOf sha256 corpus) ch root applied).Ensures
        (Watched strings sha256 staging corpus ch) Applies (disk, calls) := by
  obtain ⟨⟨data, accepted⟩, base, staged⟩ := accepts.index modified
  unfold publishIndex
  refine (liveSha_ensures standing).bind fun result place ⟨standing, isLast⟩ => ?_
  obtain ⟨disk, calls⟩ := place
  cases result with
  | error raised => exact ensures_end (applies_failed _ _ standing rfl)
  | ok nowSha =>
      dsimp only
      split
      · refine ensures_journal standing rfl fun result later calls standing => ?_
        cases result with
        | error raised => exact ensures_end (applies_failed _ _ standing rfl)
        | ok => exact ensures_end (applies_done _ _ standing)
      · rename_i same
        rw [not_not, lookup_manifestOf, staged] at same
        -- The digest that was just read is that of the staged index, so these are its bytes.
        obtain ⟨before, now, read, later, rfl, isDigest⟩ := isLast (sha256 base) (by rw [same]; rfl)
        obtain rfl : base = read := separates isDigest
        refine Program.Ensures.notes fun found moved => ⟨⟨data, accepted⟩, ?_⟩
        have standing := standing.moved moved
        rintro ⟨temporary, result⟩ after ⟨isNew, copied⟩
        have kept : after.journal = found.journal := by
          rcases copied with ⟨_, rfl⟩ | ⟨_, _, _, _, _, _, _, rfl⟩ <;> rfl
        cases result with
        | error raised =>
            by_cases there : (after.entries temporary).isSome = true
            · exact ensures_end (applies_failed _ _ (standing.copyTorn raised there kept) rfl)
            · have absent : (after.entries temporary).isSome = false := by simpa using there
              have idle : after.entries = found.entries ∧ after.bytes = found.bytes := by
                rcases copied with ⟨_, rfl⟩ | ⟨_, inode, _, _, _, _, _, rfl⟩
                · exact ⟨rfl, rfl⟩
                · simp at there
              exact ensures_end (applies_failed _ _ (standing.uncopied raised absent idle kept) rfl)
        | ok =>
            have there : (after.entries temporary).isSome = true := by
              rcases copied with ⟨⟨_, failed⟩, _⟩ | ⟨_, _, _, _, _, _, _, rfl⟩
              · cases failed
              · simp
            have copies := standing.copied there kept
            refine Program.Ensures.notes fun ready moved => ⟨⟨?_, data, accepted⟩, ?_⟩
            · exact ⟨before, _, _, base, by simp, ⟨now, later, rfl⟩,
                ⟨found, after, rfl, isNew⟩, staged⟩
            · intro result last answered
              have copies := copies.moved moved
              cases result with
              | error raised =>
                  obtain rfl : last = ready := answered
                  exact ensures_end (applies_failed _ _ (copies.replaceTorn raised rfl) rfl)
              | ok =>
                  obtain ⟨entry, _, same⟩ := answered
                  have unmoved : last.journal = ready.journal := same ▸ rfl
                  refine ensures_journal (copies.replaced unmoved) rfl
                    fun result later calls standing => ?_
                  cases result with
                  | error raised => exact ensures_end (applies_failed _ _ standing rfl)
                  | ok => exact ensures_end (applies_done _ _ standing)

/-- The new files, and then the index. -/
theorem applyTargets_ensures (separates : Function.Injective sha256)
    (accepts : Accepts strings sha256 staging corpus ch)
    (standing : Standing [] [] false (some []) disk calls)
    : (applyTargets sha256 (manifestOf sha256 corpus) ch root).Ensures
        (Watched strings sha256 staging corpus ch) Applies (disk, calls) := by
  have creates
      : (createFiles ch root ch.newFiles []).Ensures (Watched strings sha256 staging corpus ch)
          Applies (disk, calls) :=
    createFiles_ensures accepts ch.newFiles (fun _ mem => mem) standing
  refine creates.bind fun result place applies => ?_
  obtain ⟨applied, stop⟩ := result
  obtain ⟨disk, calls⟩ := place
  obtain ⟨left, broken, listed, standing, whole, done⟩ := applies
  cases stop with
  | some stop =>
      exact ensures_end fun later same =>
        ⟨left, broken, listed, standing.moved same, whole, done⟩
  | none =>
      obtain ⟨rfl, rfl⟩ := done nofun
      obtain rfl : broken = false := whole
      dsimp only
      split
      · rename_i modified
        exact publishIndex_ensures separates accepts modified standing
      · exact ensures_end (applies_done _ _ standing)

/-- How a promotion ends: the journal lists what was applied, or was never written. -/
def Finishes (ended : Ended) (place : Disk × List Call) : Prop :=
  ∃ applied left broken listed,
    Standing applied left broken listed place.1 place.2
    ∧ broken = !left.isEmpty
    ∧ (listed = some applied ∨ listed = none ∧ applied = [])
    ∧ ∀ notes, ended = .returned false notes → applied = []

/-- A promotion ends with the journal that it has written. -/
theorem finishes {ended : Ended}
    (standing : Standing applied left broken (some applied) disk calls)
    (whole : broken = !left.isEmpty)
    (reports : ∀ notes, ended = .returned false notes → applied = [])
    : (pure ended : Run Ended).Ensures (Watched strings sha256 staging corpus ch) Finishes
        (disk, calls) :=
  ensures_end fun _ same =>
    ⟨applied, left, broken, some applied, standing.moved same, whole, .inl rfl, reports⟩

/-- Write the journal, and return with a note or raise. -/
theorem journals_returns {next : Except Str Unit → Run Ended} {note : Str}
    (standing : Standing applied [] false (some applied) disk calls)
    (names : record.applied = applied) (fails : ∀ error, next (.error error) = pure .raised)
    (succeeds : next (.ok ()) = returns note)
    : (ask (.writeJournal record) >>= next).Ensures (Watched strings sha256 staging corpus ch)
        Finishes (disk, calls) := by
  refine ensures_journal standing names fun result later calls standing => ?_
  cases result with
  | error error => exact fails error ▸ finishes standing rfl nofun
  | ok => exact succeeds ▸ finishes standing rfl nofun

/-- The git index is brought back to `HEAD`'s. -/
theorem resync_ensures (standing : Standing applied [] false (some applied) disk calls)
    : (resync ch root applied).Ensures (Watched strings sha256 staging corpus ch) Finishes
        (disk, calls) := by
  refine ensures_quiet rfl standing fun head now _ standing => ?_
  cases head with
  | none => exact finishes standing rfl nofun
  | some head =>
      dsimp only
      split
      · exact finishes standing rfl nofun
      · refine ensures_quiet rfl standing fun reset now _ standing => ?_
        cases reset with
        | none => exact finishes standing rfl nofun
        | some reset =>
            dsimp only
            split
            · exact journals_returns standing rfl (fun _ => rfl) rfl
            · exact journals_returns standing rfl (fun _ => rfl) rfl

/-- What was applied is committed. -/
theorem commit_ensures (slug : Str) (standing : Standing applied [] false (some applied) disk calls)
    : (commit ch root slug applied).Ensures (Watched strings sha256 staging corpus ch) Finishes
        (disk, calls) := by
  refine ensures_quiet rfl standing fun read now _ standing => ?_
  cases read with
  | none => exact finishes standing rfl nofun
  | some read =>
      dsimp only
      split
      · exact journals_returns standing rfl (fun _ => rfl) rfl
      · refine ensures_quiet rfl standing fun added now _ standing => ?_
        cases added with
        | none => exact finishes standing rfl nofun
        | some added =>
            dsimp only
            split
            · exact journals_returns standing rfl (fun _ => rfl) rfl
            · refine ensures_quiet rfl standing fun committed now _ standing => ?_
              cases committed with
              | none => exact finishes standing rfl nofun
              | some committed =>
                  dsimp only
                  split
                  · exact journals_returns standing rfl (fun _ => rfl) rfl
                  · exact resync_ensures standing

/-- A return value that says whether anything was applied. -/
theorem reports_applied {notes : List Str}
    : ∀ other, Ended.returned (!applied.isEmpty) notes = .returned false other → applied = [] := by
  intro other same
  have isEmpty : (!applied.isEmpty) = false := (Ended.returned.inj same).1
  simpa using isEmpty

/-- The targets are applied, and committed if all of them were. -/
theorem writeTargets_ensures (separates : Function.Injective sha256) (slug : Str)
    (accepts : Accepts strings sha256 staging corpus ch)
    (standing : Standing [] [] false none disk calls)
    : (writeTargets strings sha256 (manifestOf sha256 corpus) ch root slug).Ensures
        (Watched strings sha256 staging corpus ch) Finishes (disk, calls) := by
  refine ensures_journal standing rfl fun result later calls standing => ?_
  cases result with
  | error => exact finishes standing rfl nofun
  | ok =>
      refine (applyTargets_ensures separates accepts standing).bind fun result place applies => ?_
      obtain ⟨applied, stop⟩ := result
      obtain ⟨disk, calls⟩ := place
      obtain ⟨left, broken, listed, standing, whole, done⟩ := applies
      match stop with
      | none =>
          obtain ⟨rfl, rfl⟩ := done nofun
          obtain rfl : broken = false := whole
          exact commit_ensures slug standing
      | some .conflict =>
          obtain ⟨rfl, rfl⟩ := done (by simp)
          exact finishes standing whole reports_applied
      | some (.failed error) =>
          refine ensures_journal standing rfl fun result later calls standing => ?_
          cases result with
          | error => exact finishes standing whole nofun
          | ok => exact finishes standing whole reports_applied

/-- Nothing was written yet. -/
theorem refused_ensures (note : Str) (standing : Standing [] [] false none disk calls)
    : (refused note).Ensures (Watched strings sha256 staging corpus ch) Finishes (disk, calls) :=
  ensures_end fun _ same =>
    ⟨[], [], false, none, standing.moved same, rfl, .inr ⟨rfl, rfl⟩, fun _ _ => rfl⟩

/-- An exception at the start leaves nothing. -/
theorem raised_ensures (standing : Standing [] [] false none disk calls)
    : (pure .raised : Run Ended).Ensures (Watched strings sha256 staging corpus ch) Finishes
        (disk, calls) :=
  ensures_end fun _ same =>
    ⟨[], [], false, none, standing.moved same, rfl, .inr ⟨rfl, rfl⟩, fun _ _ => rfl⟩

/-- A promotion as a whole. -/
theorem promoteApply_ensures (separates : Function.Injective sha256) (dirty : List Str) (slug : Str)
    (accepts : Accepts strings sha256 staging corpus ch) (start : disk.journal.isPrivate = true)
    : (promoteApply strings sha256 (manifestOf sha256 corpus) ch root dirty slug).Ensures
        (Watched strings sha256 staging corpus ch) Finishes (disk, []) := by
  have standing : Standing [] [] false none disk [] :=
    { isPrivate := start, lands := rfl, faults := rfl, idle := nofun, lists := fun _ => rfl }
  unfold promoteApply
  split
  · exact refused_ensures _ standing
  · refine ensures_quiet rfl standing fun head now _ standing => ?_
    cases head with
    | none => exact raised_ensures standing
    | some head =>
        dsimp only
        split
        · exact refused_ensures _ standing
        · refine (firstUnsafe_ensures ch.targets standing).bind fun found place standing => ?_
          cases found with
          | some rel => exact refused_ensures _ standing
          | none =>
              dsimp only
              split
              · exact refused_ensures _ standing
              · refine (firstPresent_ensures ch.newFiles standing).bind
                  fun found place standing => ?_
                cases found with
                | some rel => exact refused_ensures _ standing
                | none =>
                    dsimp only [checkIndex]
                    split
                    · refine (liveSha_ensures standing).bind fun result place ⟨standing, _⟩ => ?_
                      cases result with
                      | error => exact raised_ensures standing
                      | ok liveSha =>
                          dsimp only
                          split
                          · exact refused_ensures _ standing
                          · exact writeTargets_ensures separates slug accepts standing
                    · exact writeTargets_ensures separates slug accepts standing

-- Every promotion

/-- What the classification lets through is accepted. -/
theorem accepts_classified {op : Op}
    (clean
      : (classifyChanges strings sha256 staging (manifestOf sha256 corpus) op).violations = [])
    : Accepts strings sha256 staging corpus
        (classifyChanges strings sha256 staging (manifestOf sha256 corpus) op) where
  fresh rel mem := by
    obtain ⟨data, staged, accepted⟩ := accepted_new mem
    exact ⟨data, List.mem_append_left _ mem, staged, accepted⟩
  index modified := by
    obtain ⟨⟨data, staged, accepted⟩, digest, listed⟩ := accepted_index clean modified
    rw [lookup_manifestOf] at listed
    obtain ⟨base, isBase, _⟩ := Option.map_eq_some_iff.mp listed
    refine ⟨⟨data, ?_, staged, accepted⟩, base, isBase⟩
    rw [Changes.targets, if_pos modified]
    exact List.mem_append_right _ List.mem_cons_self

/-- A promotion of accepted changes whose journal is a file of its own writes accepted targets only
and overwrites nothing but the index that it compared. Where the last write of the journal succeeds,
the journal at the end is exact if no call failed half way, and only then.
-/
theorem promote_protects (separates : Function.Injective sha256) (op : Op) (dirty : List Str)
    (slug : Str)
    (clean
      : (classifyChanges strings sha256 staging (manifestOf sha256 corpus) op).violations = [])
    (isPrivate : disk.journal.isPrivate = true) {result : Option Ended}
    (performs
      : (promoteApply strings sha256 (manifestOf sha256 corpus)
            (classifyChanges strings sha256 staging (manifestOf sha256 corpus) op)
            root dirty slug).Performs
          (setting staging) disk calls result after)
    : (∀ earlier call later,
        calls = earlier ++ call :: later
        → Protected strings sha256 staging corpus
            (classifyChanges strings sha256 staging (manifestOf sha256 corpus) op) earlier call)
      ∧ ∀ ended,
          result = some ended → journalled calls = true
          → (Exact calls ended after ↔ faultless calls = true) := by
  have ensures
      : (promoteApply strings sha256 (manifestOf sha256 corpus)
            (classifyChanges strings sha256 staging (manifestOf sha256 corpus) op)
            root dirty slug).Ensures
          (Watched strings sha256 staging corpus
            (classifyChanges strings sha256 staging (manifestOf sha256 corpus) op))
          Finishes (disk, []) :=
    promoteApply_ensures separates dirty slug (accepts_classified clean) isPrivate
  obtain ⟨asked, ends⟩ := ensures.performed performs
  constructor
  · intro earlier call later same
    obtain ⟨permitted, answered⟩ := asked earlier call later same
    exact protected_of_permits permitted answered
  · intro ended isEnd good
    obtain ⟨applied, left, broken, listed, standing, whole, lists, reports⟩ := ends ended isEnd
    exact standing.exact_iff whole good lists reports

-- A full disk, and a link under the journal's name

def sampleStrings : Strings where
  nfc := id
  lower text := text.map Char.toLower
  isWord char := isDashedWord char && char ≠ '-'
  repr text := '\'' :: text ++ ['\'']
  decodeReplace bytes := (decodeUtf8 bytes).getD []

def sampleName : Str :=
  "a.md".toList

def sampleText : Str :=
  "note".toList

def sampleStaging : Staging where
  nodes := [(sampleName, .file (utf8 sampleText))]
  distinct := by decide

def sampleChanges : Changes where
  newFiles := [sampleName]
  indexModified := false
  violations := []

/-- A text that passes each of the checks has no violation. -/
theorem contentViolations_clean {strings : Strings} {name text : Str} {bases : List Str}
    (short : (utf8 text).length ≤ PROMOTE_FILE_CAP_BYTES)
    (printable : text.contains '\x00' = false)
    (secrets : (SECRET_RES strings).all (fun secret => !secret.2.search text) = true)
    (fence : FENCE_LOOKALIKE_RE.search text = false) (links : wikilinks text = [])
    : contentViolations strings name (utf8 text) bases = [] := by
  have none_ : (SECRET_RES strings).filter (fun secret => secret.2.search text) = [] :=
    List.filter_eq_nil_iff.mpr fun secret mem => by
      simpa using List.all_eq_true.mp secrets secret mem
  have fits : ¬(utf8 text).length > PROMOTE_FILE_CAP_BYTES := Nat.not_lt.mpr short
  have decoded := decodeUtf8_utf8 text
  unfold contentViolations
  rw [if_neg fits]
  generalize decodeUtf8 (utf8 text) = decoded_ at decoded
  subst decoded
  simp only [printable, none_, fence, links]
  rfl

theorem sample_clean (bases : List Str)
    : contentViolations sampleStrings sampleName (utf8 sampleText) bases = [] :=
  contentViolations_clean (by decide) rfl rfl rfl rfl

theorem sample_classified
    : classifyChanges sampleStrings id sampleStaging (manifestOf id []) .file = sampleChanges := by
  have fresh
      : newNames sampleStrings id sampleStaging (manifestOf id [])
        = [(sampleName, utf8 sampleText)] := by
    rfl
  have found
      : findings sampleStrings id sampleStaging (manifestOf id [])
        = [(sampleName, .fresh (utf8 sampleText))] := by
    rfl
  have notIndex : sampleName ≠ INDEX := by decide
  have sorted
      : sortedByName [(sampleName, utf8 sampleText)] = [(sampleName, utf8 sampleText)] :=
    List.mergeSort_singleton _
  have dirs : createdDirectories sampleStrings sampleStaging (manifestOf id []) = [] := by rfl
  have gone : deletedFiles sampleStrings sampleStaging (manifestOf id []) = [] := by rfl
  simp [classifyChanges, fresh, found, sorted, newViolations, sample_clean, notIndex, dirs, gone,
    sampleChanges]

def sampleDisk (place : Place) : Disk where
  entries name := if name = "notes.md".toList then some (.file 1) else none
  bytes _ := ascii "mine"
  journal := place

def sampleRoot : Str :=
  "/corpus".toList

/-- The calls before the first write. -/
def sampleChecks (disk : Disk) : List Call :=
  [ ⟨disk, .git ["rev-parse".toList, "--verify".toList, "HEAD".toList] false,
      some ⟨0, [], []⟩, disk⟩,
    ⟨disk, .inRoot sampleName, true, disk⟩, ⟨disk, .exists sampleName, false, disk⟩ ]

def sampleJournal (applied : List Str) (state : String) (extra : List (Str × Str)) : Journal :=
  journal sampleChanges sampleRoot applied state extra

/-- What the journal says, and the disk once the new file has been created. -/
def sampleListed (applied : List Str) (state : String) (extra : List (Str × Str)) : Place :=
  .own (some (sampleJournal applied state extra))

def sampleCreated (place : Place) : Disk :=
  ((sampleDisk place).fill 0 []).link sampleName (some (.file 0))

def sampleFilled (place : Place) (data : Bytes) : Disk :=
  (sampleCreated place).fill 0 data

def sampleCreates : List Call :=
  let before := sampleDisk .absent
  let listed := sampleDisk (sampleListed [] "applying" [])
  sampleChecks before
    ++ [ ⟨before, .writeJournal (sampleJournal [] "applying" []), .ok (), listed⟩,
         ⟨listed, .readStaged sampleName, .ok (utf8 sampleText), listed⟩,
         ⟨listed, .create sampleName, .ok 0, sampleCreated (sampleListed [] "applying" [])⟩ ]

def fullDisk : Str :=
  "[Errno 28] No space left on device".toList

/-- The disk is full when the new file is written. -/
def tornCalls : List Call :=
  let place := sampleListed [] "applying" []
  let extra := [("error".toList, fullDisk)]
  sampleCreates
    ++ [ ⟨sampleCreated place, .write 0 (utf8 sampleText), .error fullDisk, sampleFilled place []⟩,
         ⟨sampleFilled place [], .writeJournal (sampleJournal [] "applied-partial" extra), .ok (),
           sampleFilled (sampleListed [] "applied-partial" extra) []⟩ ]

/-- Everything succeeds until the commit, which takes too long. -/
def slowCalls : List Call :=
  let place := sampleListed [] "applying" []
  let listed := sampleListed [sampleName] "applying" []
  let filled := sampleFilled listed (utf8 sampleText)
  sampleCreates
    ++ [ ⟨sampleCreated place, .write 0 (utf8 sampleText), .ok (),
           sampleFilled place (utf8 sampleText)⟩,
         ⟨sampleFilled place (utf8 sampleText),
           .writeJournal (sampleJournal [sampleName] "applying" []), .ok (), filled⟩,
         ⟨filled, .git ["read-tree".toList, "HEAD".toList] true, none, filled⟩ ]

/-- The agent has left a link to a note of the corpus under the journal's name. -/
def linkedCalls : List Call :=
  let before := sampleDisk (.link "notes.md".toList)
  let record := sampleJournal [] "applying" []
  sampleChecks before
    ++ [⟨before, .writeJournal record, .ok (), before.fill 1 (utf8 record.text)⟩]

theorem sampleDisk_free (place : Place) : (sampleDisk place).entries sampleName = none := by
  rfl

theorem sampleDisk_unused {place : Place} (other : place ≠ .hardLink 0)
    : (sampleDisk place).Unused 0 := by
  refine ⟨fun name same => ?_, other⟩
  simp only [sampleDisk] at same
  split at same
  · cases same
  · cases same

/-- The checks look at the disk as it is. -/
theorem sampleChecks_linked {place : Place} {rest : List Call} {after : Disk}
    (linked : Program.Linked (setting sampleStaging) (sampleDisk place) rest after)
    : Program.Linked (setting sampleStaging) (sampleDisk place)
        (sampleChecks (sampleDisk place) ++ rest) after := by
  refine ⟨rfl, rfl, rfl, rfl, rfl, ⟨rfl, fun _ => rfl, fun inode present => ?_⟩, linked⟩
  rw [sampleDisk_free] at present
  cases present

/-- The new file is made and listed. -/
theorem sampleCreates_linked {rest : List Call} {after : Disk}
    (linked
      : Program.Linked (setting sampleStaging) (sampleCreated (sampleListed [] "applying" [])) rest
          after)
    : Program.Linked (setting sampleStaging) (sampleDisk .absent)
      (sampleCreates ++ rest) after := by
  refine sampleChecks_linked
    ⟨rfl, .inl ⟨rfl, rfl⟩, rfl, ⟨rfl, fun data read => ?_⟩, rfl, ?_, linked⟩
  · cases read
    rfl
  · exact ⟨sampleDisk_free _, sampleDisk_unused nofun, rfl⟩

abbrev samplePromotion (ch : Changes) : Run Ended :=
  promoteApply sampleStrings id (manifestOf id []) ch sampleRoot [] []

def tornEnd : Ended :=
  .returned false
    (partialNote sampleStrings []
      ("promote FAILED mid-apply (".toList ++ fullDisk ++ ")".toList))

/-- The disk is full in the middle of a write. -/
theorem torn_performs
    : (samplePromotion sampleChanges).Performs (setting sampleStaging)
      (sampleDisk .absent) tornCalls
        (some tornEnd)
        (sampleFilled (sampleListed [] "applied-partial" [("error".toList, fullDisk)]) []) :=
  Program.performs_replay
    (sampleCreates_linked ⟨rfl, ⟨[], List.nil_prefix, nofun, rfl⟩, rfl, .inl ⟨rfl, rfl⟩, rfl⟩)
    rfl

/-- The commit takes too long. -/
theorem slow_performs
    : (samplePromotion sampleChanges).Performs (setting sampleStaging)
      (sampleDisk .absent) slowCalls
        (some .raised)
        (sampleFilled (sampleListed [sampleName] "applying" []) (utf8 sampleText)) :=
  Program.performs_replay
    (sampleCreates_linked
      ⟨rfl, ⟨_, List.prefix_refl _, fun _ => rfl, rfl⟩, rfl, .inl ⟨rfl, rfl⟩, rfl, rfl, rfl⟩)
    rfl

/-- The journal is written into a note. -/
theorem linked_performs
    : (samplePromotion sampleChanges).Performs (setting sampleStaging)
        (sampleDisk (.link "notes.md".toList)) linkedCalls none
        ((sampleDisk (.link "notes.md".toList)).fill 1
          (utf8 (sampleJournal [] "applying" []).text)) :=
  Program.performs_replay
    (sampleChecks_linked ⟨rfl, ⟨_, List.prefix_refl _, fun _ => rfl, rfl⟩, rfl⟩)
    rfl

/-- Other bytes are a change. -/
theorem fill_changes {disk : Disk} {inode : Nat} {data : Bytes} (differs : data ≠ disk.bytes inode)
    : (disk.fill inode data).bytes inode ≠ disk.bytes inode := by
  rw [Disk.fill_self]
  exact differs

abbrev sampleClassified : Changes :=
  classifyChanges sampleStrings id sampleStaging (manifestOf id []) .file

theorem sample_promote_protects
    : (∀ earlier call later,
        slowCalls = earlier ++ call :: later
        → Protected sampleStrings id sampleStaging [] sampleClassified earlier call)
      ∧ Exact slowCalls .raised
          (sampleFilled (sampleListed [sampleName] "applying" []) (utf8 sampleText)) := by
  have clean : sampleClassified.violations = [] := by rw [sampleClassified, sample_classified]; rfl
  have performs := slow_performs
  rw [← sample_classified] at performs
  obtain ⟨safe, exact_⟩ := promote_protects Function.injective_id .file [] [] clean rfl performs
  exact ⟨safe, (exact_ .raised rfl (by decide)).mpr (by decide)⟩

/-- A full disk leaves an empty file that neither the journal nor the note names; a link under the
journal's name makes the promotion write over a note.
-/
theorem promote_clobbers
    : sampleClassified.violations = []
      ∧ ((samplePromotion sampleClassified).Performs (setting sampleStaging) (sampleDisk .absent)
            tornCalls (some tornEnd)
            (sampleFilled (sampleListed [] "applied-partial" [("error".toList, fullDisk)]) [])
          ∧ ¬Exact tornCalls tornEnd
            (sampleFilled (sampleListed [] "applied-partial" [("error".toList, fullDisk)]) []))
      ∧ ((samplePromotion sampleClassified).Performs (setting sampleStaging)
            (sampleDisk (.link "notes.md".toList)) linkedCalls none
            ((sampleDisk (.link "notes.md".toList)).fill 1
              (utf8 (sampleJournal [] "applying" []).text))
          ∧ ¬∀ earlier call later,
              linkedCalls = earlier ++ call :: later
              → Protected sampleStrings id sampleStaging [] sampleClassified earlier call) := by
  rw [sampleClassified, sample_classified]
  refine ⟨rfl, ⟨torn_performs, fun isExact => ?_⟩, linked_performs, fun safe => ?_⟩
  · have journal := isExact.journal
    have wrote : tornCalls.any writesJournal = true := rfl
    have lands : landed tornCalls = [.file sampleName] := rfl
    rw [if_pos wrote, lands] at journal
    obtain ⟨record, isRecord, same⟩ := journal
    cases isRecord
    cases same
  · have «protected» := safe (sampleChecks (sampleDisk (.link "notes.md".toList))) _ [] rfl
    have changed
        : utf8 (sampleJournal [] "applying" []).text
          ≠ (sampleDisk (.link "notes.md".toList)).bytes 1 := by
      decide
    obtain ⟨⟨maker, mem, ⟨unused, _⟩, _⟩, _⟩ := «protected».bytes 1 (fill_changes changed)
    have same : maker.before = sampleDisk (.link "notes.md".toList) := by
      simp only [sampleChecks, List.cons_append, List.nil_append, List.mem_cons, List.not_mem_nil,
        or_false] at mem
      rcases mem with rfl | rfl | rfl | rfl <;> rfl
    rw [same] at unused
    exact unused "notes.md".toList rfl

end Curate
