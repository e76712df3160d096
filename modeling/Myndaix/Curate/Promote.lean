import Myndaix.Curate.Changes
import Myndaix.Interaction.Histories

/-! The promotion of accepted changes to the live corpus, call by call, while a human goes on
editing that corpus. Any call to the file system can fail.
-/

namespace Curate

open Interaction Text

-- The live corpus and the journal

/-- What a name of the corpus stands for: a file by its inode, or a directory, a link, a device. -/
inductive Entry where
  | file (inode : Nat)
  | other
deriving Repr, DecidableEq

/-- The record that the journal spells as JSON; `extra` holds what one state has beyond the others.
-/
structure Journal where
  targets : List Str
  applied : List Str
  state : Str
  root : Str
  extra : List (Str × Str)
deriving Repr, DecidableEq

/-- What stands under the journal's name in the staging directory: nothing, a file of its own with
what can be read from it, a directory, or another name of a file in the corpus.
-/
inductive Place where
  | absent
  | own (record : Option Journal)
  | directory
  | link (name : Str)
  | hardLink (inode : Nat)
deriving Repr, DecidableEq

/-- Writing the journal writes to no other file. -/
def Place.isPrivate : Place → Bool
  | .absent | .own _ | .directory => true
  | .link _ | .hardLink _ => false

structure Disk where
  entries : Str → Option Entry
  bytes : Nat → Bytes
  journal : Place

namespace Disk

def link (disk : Disk) (name : Str) (entry : Option Entry) : Disk :=
  { disk with entries := Function.update disk.entries name entry }

def fill (disk : Disk) (inode : Nat) (data : Bytes) : Disk :=
  { disk with bytes := Function.update disk.bytes inode data }

/-- No name leads to the inode. -/
def Unused (disk : Disk) (inode : Nat) : Prop :=
  (∀ name, disk.entries name ≠ some (.file inode)) ∧ disk.journal ≠ .hardLink inode

@[simp] theorem link_journal (disk : Disk) (name : Str) (entry : Option Entry)
    : (disk.link name entry).journal = disk.journal :=
  rfl

@[simp] theorem link_self (disk : Disk) (name : Str) (entry : Option Entry)
    : (disk.link name entry).entries name = entry :=
  Function.update_self _ _ _

@[simp] theorem fill_self (disk : Disk) (inode : Nat) (data : Bytes)
    : (disk.fill inode data).bytes inode = data :=
  Function.update_self _ _ _

@[simp] theorem link_bytes (disk : Disk) (name : Str) (entry : Option Entry)
    : (disk.link name entry).bytes = disk.bytes :=
  rfl

@[simp] theorem fill_journal (disk : Disk) (inode : Nat) (data : Bytes)
    : (disk.fill inode data).journal = disk.journal :=
  rfl

@[simp] theorem fill_entries (disk : Disk) (inode : Nat) (data : Bytes)
    : (disk.fill inode data).entries = disk.entries :=
  rfl

end Disk

-- The text of a journal

def hexDigits (width number : Nat) : Str :=
  let digits := Nat.toDigits 16 number
  List.replicate (width - digits.length) '0' ++ digits

def unicodeEscape (unit : Nat) : Str :=
  "\\u".toList ++ hexDigits 4 unit

/-- A character inside a string of `json.dumps`, which keeps to ASCII. -/
def jsonChar (char : Char) : Str :=
  if char = '"' then "\\\"".toList
  else if char = '\\' then "\\\\".toList
  else if char = '\n' then "\\n".toList
  else if char = '\r' then "\\r".toList
  else if char = '\t' then "\\t".toList
  else if char.toNat = 0x08 then "\\b".toList
  else if char.toNat = 0x0C then "\\f".toList
  else if 0x20 ≤ char.toNat && char.toNat < 0x7F then [char]
  else if char.toNat < 0x10000 then unicodeEscape char.toNat
  else
    let offset := char.toNat - 0x10000
    unicodeEscape (0xD800 + offset / 0x400) ++ unicodeEscape (0xDC00 + offset % 0x400)

def jsonString (text : Str) : Str :=
  '"' :: text.flatMap jsonChar ++ ['"']

def jsonList (texts : List Str) : Str :=
  if texts.isEmpty then "[]".toList
  else
    "[\n".toList
    ++ ",\n".toList.intercalate (texts.map (fun text => "    ".toList ++ jsonString text))
      ++ "\n  ]".toList

/-- `json.dumps(…, indent=2)`. -/
def Journal.text (journal : Journal) : Str :=
  let fields :=
    [ ("targets".toList, jsonList journal.targets), ("applied".toList, jsonList journal.applied),
      ("state".toList, jsonString journal.state), ("root".toList, jsonString journal.root) ]
    ++ journal.extra.map (fun field => (field.1, jsonString field.2))
  "\x7b\n".toList
    ++ ",\n".toList.intercalate
        (fields.map (fun field => "  ".toList ++ jsonString field.1 ++ ": ".toList ++ field.2))
    ++ "\n\x7d".toList

-- What a promotion asks of its surroundings

/-- How a command ended, with what it wrote. -/
structure Completed where
  returncode : Int
  stdout : Str
  stderr : Str
deriving Repr, DecidableEq

/-- The calls; a temporary name is drawn when the index is copied. -/
inductive Query where
  | git (argv : List Str) (scratchIndex : Bool)
  | inRoot (rel : Str)
  | exists (rel : Str)
  | readLive (rel : Str)
  | readStaged (rel : Str)
  | create (rel : Str)
  | write (inode : Nat) (data : Bytes)
  | copyIndex
  | replaceIndex (temporary : Str)
  | writeJournal (journal : Journal)
deriving Repr, DecidableEq

/-- A call that can raise an `OSError` answers with its text then; a command that runs too long
answers nothing.
-/
abbrev Answer : Query → Type
  | .git _ _ => Option Completed
  | .inRoot _ | .exists _ => Bool
  | .readLive _ | .readStaged _ => Except Str Bytes
  | .create _ => Except Str Nat
  | .copyIndex => Str × Except Str Unit
  | .write _ _ | .replaceIndex _ | .writeJournal _ => Except Str Unit

abbrev ask (query : Query) : Program Query Answer (Answer query) :=
  Program.ask query

abbrev Run (Result : Type) : Type :=
  Program Query Answer Result

/-- A promotion returns whether anything was applied, with its notes, or raises. -/
inductive Ended where
  | returned (applied : Bool) (notes : List Str)
  | raised
deriving Repr, DecidableEq

-- Before the first write

section Promotion

variable {Digest : Type} [DecidableEq Digest] (strings : Strings) (sha256 : Bytes → Digest)
  (manifest : Manifest Digest) (ch : Changes) (root : Str)

/-- The first target that `_safe_target` refuses. -/
def firstUnsafe : List Str → Run (Option Str)
  | [] => pure none
  | rel :: rest => do
      if rel ≠ INDEX && !validNewFilename strings rel then return some rel
      if ← ask (.inRoot rel) then firstUnsafe rest
      else return some rel

/-- The first new file whose name the live corpus already has. -/
def firstPresent : List Str → Run (Option Str)
  | [] => pure none
  | rel :: rest => do
      if ← ask (.exists rel) then return some rel
      firstPresent rest

/-- The digest of the live index, if there is one. -/
def liveSha : Run (Except Str (Option Digest)) := do
  if ← ask (.exists INDEX) then
    match ← ask (.readLive INDEX) with
    | .ok data => return .ok (some (sha256 data))
    | .error raised => return .error raised
  else return .ok none

def Changes.targets : List Str :=
  ch.newFiles ++ if ch.indexModified then [INDEX] else []

def journal (applied : List Str) (state : String) (extra : List (Str × Str)) : Journal :=
  { targets := ch.targets, applied, state := state.toList, root, extra }

-- The writes

/-- How the writes ended, unless in time: the index had changed, or a call failed. -/
inductive Stop where
  | conflict
  | failed (error : Str)
deriving Repr, DecidableEq

/-- Create the new files one by one, with what has been applied so far. -/
def createFiles : List Str → List Str → Run (List Str × Option Stop)
  | [], applied => pure (applied, none)
  | rel :: rest, applied => do
      match ← ask (.readStaged rel) with
      | .error raised => return (applied, some (.failed raised))
      | .ok data =>
          match ← ask (.create rel) with
          | .error raised => return (applied, some (.failed raised))
          | .ok inode =>
              match ← ask (.write inode data) with
              | .error raised => return (applied, some (.failed raised))
              | .ok () =>
                  let applied := applied ++ [rel]
                  match ← ask (.writeJournal (journal ch root applied "applying" [])) with
                  | .error raised => return (applied, some (.failed raised))
                  | .ok () => createFiles rest applied

/-- Compare the live index once more, then put the copy of the staged one in its place. -/
def publishIndex (applied : List Str) : Run (List Str × Option Stop) := do
  match ← liveSha sha256 with
  | .error raised => return (applied, some (.failed raised))
  | .ok nowSha =>
      if nowSha ≠ manifest.lookup INDEX then
        match ← ask (.writeJournal (journal ch root applied "aborted-index-conflict" [])) with
        | .error raised => return (applied, some (.failed raised))
        | .ok () => return (applied, some .conflict)
      else
        match ← ask .copyIndex with
        | (_, .error raised) => return (applied, some (.failed raised))
        | (temporary, .ok ()) =>
            match ← ask (.replaceIndex temporary) with
            | .error raised => return (applied, some (.failed raised))
            | .ok () =>
                let applied := applied ++ [INDEX]
                match ← ask (.writeJournal (journal ch root applied "applying" [])) with
                | .error raised => return (applied, some (.failed raised))
                | .ok () => return (applied, none)

def applyTargets : Run (List Str × Option Stop) := do
  match ← createFiles ch root ch.newFiles [] with
  | (applied, some stop) => return (applied, some stop)
  | (applied, none) =>
      if ch.indexModified then publishIndex sha256 manifest ch root applied
      else return (applied, none)

-- The commit

def commaSeparated (names : List Str) : Str :=
  ", ".toList.intercalate names

/-- `(r.stderr or r.stdout).strip()`. -/
def Completed.complaint (completed : Completed) : Str :=
  Outcomes.strip (if completed.stderr.isEmpty then completed.stdout else completed.stderr)

/-- The text of the error that `_git` raises for a command that fails. -/
def gitFailed (argv : List Str) (completed : Completed) : Str :=
  "git ".toList ++ [' '].intercalate (argv.take 2) ++ " failed: ".toList
    ++ completed.complaint.take 300

def count (applied : List Str) : Str :=
  applied.length.repr.toList

def returns (note : Str) : Run Ended :=
  pure (.returned true [note])

def commitSetupFailed (applied : List Str) (error : Str) : Run Ended := do
  match ← ask (.writeJournal
      (journal ch root applied "applied-uncommitted" [("error".toList, error.take 300)])) with
  | .error _ => return .raised
  | .ok () =>
      returns ("applied ".toList ++ count applied
        ++ " file(s) but COMMIT SETUP FAILED — files are live; commit manually. ".toList
        ++ error.take 200)

def commitFailed (applied : List Str) (completed : Completed) : Run Ended := do
  match ← ask (.writeJournal
      (journal ch root applied "applied-uncommitted"
        [("error".toList, completed.complaint.take 300)])) with
  | .error _ => return .raised
  | .ok () =>
      returns ("applied ".toList ++ count applied
        ++ " file(s) but COMMIT FAILED — files are live; commit manually. git: ".toList
        ++ completed.complaint.take 200)

/-- After the commit: its name, and the real index made to agree for the applied paths. -/
def resync (applied : List Str) : Run Ended := do
  match ← ask (.git ["rev-parse".toList, "HEAD".toList] false) with
  | none => return .raised
  | some head =>
      if head.returncode ≠ 0 then return .raised
      else
        let sha := (Outcomes.strip head.stdout).take 12
        let argv := ["reset".toList, "-q".toList, "HEAD".toList, "--".toList] ++ applied
        match ← ask (.git argv false) with
        | none => return .raised
        | some reset =>
            if reset.returncode ≠ 0 then
              match ← ask (.writeJournal
                  (journal ch root applied "committed-index-desync"
                    [("commit".toList, sha), ("error".toList, reset.complaint.take 200)])) with
              | .error _ => return .raised
              | .ok () =>
                  returns ("committed ".toList ++ sha ++ ": ".toList ++ commaSeparated applied
                    ++ " — WARNING: index resync failed ".toList
                    ++ "(HEAD is correct; run `git reset` in the corpus to clear phantom entries): ".toList
                    ++ reset.complaint.take 150)
            else
              match ← ask (.writeJournal
                  (journal ch root applied "committed" [("commit".toList, sha)])) with
              | .error _ => return .raised
              | .ok () =>
                  returns ("committed ".toList ++ sha ++ ": ".toList ++ commaSeparated applied)

/-- Commit exactly the applied paths through an index of its own. -/
def commit (slug : Str) (applied : List Str) : Run Ended := do
  let readTree := ["read-tree".toList, "HEAD".toList]
  match ← ask (.git readTree true) with
  | none => return .raised
  | some read =>
      if read.returncode ≠ 0 then commitSetupFailed ch root applied (gitFailed readTree read)
      else
        let add := ["add".toList, "--".toList] ++ applied
        match ← ask (.git add true) with
        | none => return .raised
        | some added =>
            if added.returncode ≠ 0 then commitSetupFailed ch root applied (gitFailed add added)
            else
              let message := "curate(".toList ++ baseName root ++ "): ".toList ++ slug
              match ← ask (.git ["commit".toList, "-m".toList, message] true) with
              | none => return .raised
              | some committed =>
                  if committed.returncode ≠ 0 then commitFailed ch root applied committed
                  else resync ch root applied

-- The promotion

def refused (note : Str) : Run Ended :=
  pure (.returned false [note])

def reprList (names : List Str) : Str :=
  '[' :: commaSeparated (names.map strings.repr) ++ [']']

def partialNote (applied : List Str) (why : Str) : List Str :=
  [ "PARTIAL PROMOTE: ".toList ++ why ++ ". Landed (uncommitted): ".toList
    ++ (if applied.isEmpty then "none".toList else reprList strings applied)
    ++ (". The promote journal records the exact state; `git status` shows the pending files.").toList ]

/-- Write the targets under the journal, then commit them. -/
def writeTargets (slug : Str) : Run Ended := do
  match ← ask (.writeJournal (journal ch root [] "applying" [])) with
  | .error _ => return .raised
  | .ok () =>
      match ← applyTargets sha256 manifest ch root with
      | (applied, none) => commit ch root slug applied
      | (applied, some .conflict) =>
          return .returned (!applied.isEmpty)
            (partialNote strings applied
              "index.md changed at publish time — new files already landed; index NOT updated".toList)
      | (applied, some (.failed error)) =>
          match ← ask (.writeJournal
              (journal ch root applied "applied-partial" [("error".toList, error)])) with
          | .error _ => return .raised
          | .ok () =>
              return .returned (!applied.isEmpty)
                (partialNote strings applied
                  ("promote FAILED mid-apply (".toList ++ error ++ ")".toList))

/-- The index must be what it was when it was staged. -/
def checkIndex (slug : Str) : Run Ended := do
  if ch.indexModified then
    match ← liveSha sha256 with
    | .error _ => return .raised
    | .ok liveSha =>
        if liveSha ≠ manifest.lookup INDEX then
          refused "CONFLICT: live index.md changed mid-run (human edit wins) — aborted".toList
        else writeTargets strings sha256 manifest ch root slug
  else writeTargets strings sha256 manifest ch root slug

def promoteApply (dirty : List Str) (slug : Str) : Run Ended := do
  if ch.targets.isEmpty then refused "no changes to promote".toList
  else
    match ← ask (.git ["rev-parse".toList, "--verify".toList, "HEAD".toList] false) with
    | none => return .raised
    | some head =>
        if head.returncode ≠ 0 then
          refused ("REFUSED: no baseline commit (run git_preflight / make an initial commit)").toList
        else
          match ← firstUnsafe strings ch.targets with
          | some rel => refused ("REFUSED unsafe promote target ".toList ++ strings.repr rel)
          | none =>
              match ch.targets.find? dirty.contains with
              | some rel =>
                  refused ("CONFLICT: target ".toList ++ strings.repr rel
                    ++ " is dirty/untracked in the live corpus — aborted (human work wins)".toList)
              | none =>
                  match ← firstPresent ch.newFiles with
                  | some rel =>
                      refused ("CONFLICT: ".toList ++ strings.repr rel
                        ++ " appeared in the live corpus mid-run — aborted before any write".toList)
                  | none => checkIndex strings sha256 manifest ch root slug

end Promotion

end Curate
