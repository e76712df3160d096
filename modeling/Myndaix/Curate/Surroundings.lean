import Myndaix.Curate.Promote

/-! What the calls of a promotion do to the disk, what a human may do between two of them, and what
a promotion has put into the corpus by the end of a history.
-/

namespace Curate

open Interaction Text

/-- Writing the journal opens whatever stands under its name, and follows a link. -/
def JournalAnswers (journal : Journal) (disk : Disk) (result : Except Str Unit)
    (after : Disk) : Prop :=
  match disk.journal with
  | .absent | .own _ =>
      result = .ok () ∧ after = { disk with journal := .own (some journal) }
      ∨ (∃ error, result = .error error)
        ∧ (after = disk ∨ after = { disk with journal := .own none })
  | .directory => (∃ error, result = .error error) ∧ after = disk
  | .hardLink inode =>
      ∃ written,
        written <+: utf8 journal.text ∧ (result = .ok () → written = utf8 journal.text)
        ∧ after = disk.fill inode written
  | .link name =>
      match disk.entries name with
      | some (.file inode) =>
          ∃ written,
            written <+: utf8 journal.text ∧ (result = .ok () → written = utf8 journal.text)
            ∧ after = disk.fill inode written
      | some .other => after = disk
      | none =>
          ∃ inode written,
            disk.Unused inode
            ∧ written <+: utf8 journal.text ∧ (result = .ok () → written = utf8 journal.text)
            ∧ after = (disk.fill inode written).link name (some (.file inode))

/-- What a call answers and does. A link or a directory may answer anything when it is read. -/
def Answers (staging : Staging) : (query : Query) → Disk → Answer query → Disk → Prop
  | .git _ _, disk, _, after => after = disk
  | .inRoot _, disk, _, after => after = disk
  | .exists rel, disk, found, after =>
      after = disk
      ∧ (disk.entries rel = none → found = false)
      ∧ ∀ inode, disk.entries rel = some (.file inode) → found = true
  | .readLive rel, disk, read, after =>
      after = disk
      ∧ ∀ data, read = .ok data →
          disk.entries rel ≠ none
          ∧ ∀ inode, disk.entries rel = some (.file inode) → data = disk.bytes inode
  | .readStaged rel, disk, read, after =>
      after = disk ∧ ∀ data, read = .ok data → staging.data rel = some data
  -- `O_CREAT | O_EXCL` makes a new file under a name that nothing has.
  | .create rel, disk, .ok inode, after =>
      disk.entries rel = none ∧ disk.Unused inode
      ∧ after = (disk.fill inode []).link rel (some (.file inode))
  | .create _, disk, .error _, after => after = disk
  -- A failed write leaves a part of the data, and so does a failed copy.
  | .write inode data, disk, result, after =>
      ∃ written, written <+: data ∧ (result = .ok () → written = data)
      ∧ after = disk.fill inode written
  | .copyIndex, disk, (temporary, result), after =>
      disk.entries temporary = none
      ∧ ((∃ error, result = .error error) ∧ after = disk
        ∨ ∃ data inode written,
            staging.data INDEX = some data ∧ disk.Unused inode
            ∧ written <+: data ∧ (result = .ok () → written = data)
            ∧ after = (disk.fill inode written).link temporary (some (.file inode)))
  | .replaceIndex temporary, disk, .ok (), after =>
      ∃ entry,
        disk.entries temporary = some entry
        ∧ after = (disk.link temporary none).link INDEX (some entry)
  | .replaceIndex _, disk, .error _, after => after = disk
  | .writeJournal journal, disk, result, after => JournalAnswers journal disk result after

/-- A human changes the live corpus at will, and nothing else. -/
def setting (staging : Staging) : Setting Query Answer Disk where
  interferes := fun before after => after.journal = before.journal
  answers := Answers staging
  permits := fun _ _ => True
  interferes_refl := fun _ => rfl
  interferes_trans := fun first second => second.trans first

-- What has landed

abbrev Call : Type :=
  Moment Query Answer Disk

/-- A name under which a promotion has put something into the corpus. -/
inductive Landing where
  | file (name : Str)
  | temporary (name : Str)
deriving Repr, DecidableEq

/-- A call may land a file, leave a temporary one, or move that into place. -/
def land (landed : List Landing) : Call → List Landing
  | ⟨_, .create rel, .ok _, _⟩ => landed ++ [.file rel]
  | ⟨_, .copyIndex, (temporary, _), after⟩ =>
      if (after.entries temporary).isSome then landed ++ [.temporary temporary] else landed
  | ⟨_, .replaceIndex temporary, .ok (), _⟩ =>
      landed.filter (fun landing => landing ≠ .temporary temporary) ++ [.file INDEX]
  | _ => landed

def landed (calls : List Call) : List Landing :=
  calls.foldl land []

/-- A call failed after something had been put into the corpus under a name that is not done. -/
def faulty : Call → Bool
  | ⟨_, .write _ _, .error _, _⟩ => true
  | ⟨_, .copyIndex, (temporary, .error _), after⟩ => (after.entries temporary).isSome
  | ⟨_, .replaceIndex _, .error _, _⟩ => true
  | _ => false

-- The equations of both, for every proof about a single call.
attribute [local simp] land faulty

def faultless (calls : List Call) : Bool :=
  calls.all (fun call => !faulty call)

/-- The call wrote the journal, or failed to. -/
def writesJournal : Call → Bool
  | ⟨_, .writeJournal _, _, _⟩ => true
  | _ => false

def losesJournal : Call → Bool
  | ⟨_, .writeJournal _, .error _, _⟩ => true
  | _ => false

/-- The last write of the journal did not fail. -/
def journalled (calls : List Call) : Bool :=
  ((calls.filter writesJournal).getLast?).all (fun call => !losesJournal call)

/-- The call left the corpus as it was. -/
def Idle (call : Call) : Prop :=
  call.after.entries = call.before.entries ∧ call.after.bytes = call.before.bytes

@[simp] theorem landed_append (calls : List Call) (call : Call)
    : landed (calls ++ [call]) = land (landed calls) call := by
  simp [landed]

@[simp] theorem faultless_append (calls : List Call) (call : Call)
    : faultless (calls ++ [call]) = (faultless calls && !faulty call) := by
  simp [faultless]

/-- Another call leaves the last journal write as it was. -/
theorem journalled_silent (calls : List Call) {call : Call} (silent : writesJournal call = false)
    : journalled (calls ++ [call]) = journalled calls := by
  simp [journalled, List.filter_append, silent]

-- What is promised

section Promises

variable {Digest : Type} [DecidableEq Digest] (strings : Strings) (sha256 : Bytes → Digest)
  (staging : Staging) (corpus : List (Str × Bytes)) (ch : Changes)

/-- The bytes of a target that the validation accepted. -/
def AcceptedTarget (rel : Str) (data : Bytes) : Prop :=
  rel ∈ ch.targets ∧ staging.data rel = some data
  ∧ Accepted strings sha256 staging (manifestOf sha256 corpus) rel data

/-- The index was read to be what had been staged, and a copy of the accepted one was made, by the
two calls before.
-/
def Rechecked (earlier : List Call) (temporary : Str) : Prop :=
  ∃ before read copy base,
    earlier = before ++ [read, copy]
    ∧ (∃ now later, read = ⟨now, .readLive INDEX, .ok base, later⟩)
    ∧ (∃ now later,
        copy = ⟨now, .copyIndex, (temporary, .ok ()), later⟩ ∧ now.entries temporary = none)
    ∧ corpus.lookup INDEX = some base

/-- One of the calls made the file that the inode is. -/
def MadeBy (calls : List Call) (inode : Nat) : Prop :=
  ∃ call ∈ calls,
    call.before.Unused inode ∧ ∃ name, call.after.entries name = some (.file inode)

/-- A call changes a name of the corpus only to create a new file where nothing was, to draw a
temporary name, to move that away, or to replace the index that was compared; it changes no bytes
but those of files that the promotion made, to the beginning of bytes that were accepted.
-/
structure Protected (earlier : List Call) (call : Call) : Prop where
  entries
    : ∀ name, call.after.entries name ≠ call.before.entries name →
        (∃ data, call.query = .create name ∧ call.before.entries name = none
          ∧ AcceptedTarget strings sha256 staging corpus ch name data)
        ∨ (∃ temporary data, call.query = .replaceIndex temporary ∧ name = INDEX
          ∧ Rechecked corpus earlier temporary
          ∧ AcceptedTarget strings sha256 staging corpus ch INDEX data)
        ∨ (call.query = .copyIndex ∧ call.before.entries name = none)
        ∨ (call.query = .replaceIndex name ∧ call.after.entries name = none
          ∧ Rechecked corpus earlier name)
  bytes
    : ∀ inode, call.after.bytes inode ≠ call.before.bytes inode →
        MadeBy (earlier ++ [call]) inode
        ∧ ∃ rel data,
            AcceptedTarget strings sha256 staging corpus ch rel data
            ∧ call.after.bytes inode <+: data

end Promises

/-- The journal lists exactly what landed, and a promotion that reports nothing applied has changed
nothing.
-/
structure Exact (calls : List Call) (ended : Ended) (after : Disk) : Prop where
  journal
    : if calls.any writesJournal then
        ∃ record, after.journal = .own (some record)
          ∧ landed calls = record.applied.map .file
      else landed calls = []
  unchanged : ∀ notes, ended = .returned false notes → ∀ call ∈ calls, Idle call

end Curate
