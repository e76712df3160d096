import Mathlib.Algebra.GroupWithZero.Nat
import Mathlib.Data.List.Nodup
import Myndaix.Staging.LsTree

/-! The export of a tree into a fresh run directory. The file system may take two spellings for one
name, so files and directories of the tree may collide where their paths differ.
-/

namespace Staging

open Text

-- Paths of entries

/-- The components of a path below the run directory. -/
abbrev Path :=
  List Str

def components (path : Str) : Path :=
  path.splitOn '/'

/-- What is asked of the Unicode tables: `unicodedata.normalize("NFC", …)` and `str.casefold`. -/
structure Unicode where
  nfc : Str → Str
  casefold : Str → Str

def HFS_IGNORABLE : List Nat :=
  [0x200C, 0x200D, 0x200E, 0x200F, 0x202A, 0x202B, 0x202C, 0x202D, 0x202E, 0x206A, 0x206B, 0x206C,
    0x206D, 0x206E, 0x206F, 0xFEFF]

def isDotgit (unicode : Unicode) (component : Str) : Bool :=
  let comp :=
    unicode.casefold ((unicode.nfc component).filter fun char => !HFS_IGNORABLE.contains char.toNat)
  comp = ".git".toList || comp = "git~1".toList

/-- Why a snapshot is refused. -/
inductive Rejection where
  | listing (refusal : Refusal)
  | entryType (otype path : Str)
  | blobMode (mode path : Str)
  | emptyPath
  | absolute (path : Str)
  | backslash (path : Str)
  | traversal (path : Str)
  | dotgit (path : Str)
  | mkdirFailed (path : Str)
  | statFailed (path : Str)
  | collides (path : Str) (owner : Path)
  | nonHexSha (path sha : Str)
  | createFailed (path : Str)
  | noBlob (sha : Str)
  | byteCap (size remaining : Nat)
  | count (written expected : Nat)
  | badTip (tip : Str)
  | notGit
  | rundirFailed
  | recursion
  | chmodFailed
  -- Not refused by the staging: an exception of the removal passes.
  | removalRaised
deriving DecidableEq, Repr

/-- `_verify_entry_path`: why a path is refused, if it is. -/
def verifyEntryPath (unicode : Unicode) (path : Str) : Option Rejection :=
  if path = [] then some .emptyPath
  else if path.head? = some '/' then some (.absolute path)
  else if path.contains '\\' then some (.backslash path)
  else
    (components path).findSome? fun comp =>
      if comp = [] || comp = ['.'] || comp = ['.', '.'] then some (.traversal path)
      else if isDotgit unicode comp then some (.dotgit path)
      else none

def isTip (text : Str) : Bool :=
  text.length = 40 && text.all fun char => char.isDigit || ('a' ≤ char && char ≤ 'f')

-- The file system

/-- The file system: spellings with one key are one name. Some paths it does not take, of some it
does not change the mode, and some it does not remove; the empty path is the run directory.
-/
structure Volume (Key : Type) where
  fold : Str → Key
  accepts : Path → Bool
  chmods : Path → Bool
  removes : Path → Bool

/-- A directory or a file below the run directory, as it is spelled on the disk. Its key is what
`stat` shows of it: two paths have it in common exactly if they lead to one node.
-/
structure Node (Key : Type) where
  key : List Key
  spelled : Path
  content : Option Bytes

section Disk

variable {Key : Type} [DecidableEq Key] (volume : Volume Key)

def Volume.key (path : Path) : List Key :=
  path.map volume.fold

def lookup (tree : List (Node Key)) (key : List Key) : Option (Node Key) :=
  tree.find? fun node => node.key = key

/-- How a directory is spelled on the disk. -/
def spelling (tree : List (Node Key)) (key : List Key) : Path :=
  (lookup tree key).elim [] Node.spelled

/-- `os.makedirs(…, exist_ok=True)` of the directories that lead from one above; a failure leaves
those that it has made.
-/
def makedirs : List (Node Key) → Path → Path → Except (List (Node Key)) (List (Node Key))
  | tree, _, [] => .ok tree
  | tree, above, name :: rest =>
      let path := above ++ [name]
      match lookup tree (volume.key path) with
      | some node => if node.content.isNone then makedirs tree path rest else .error tree
      | none =>
          if volume.accepts path then
            let made : Node Key :=
              {
                key := volume.key path
                spelled := spelling tree (volume.key above) ++ [name]
                content := none
              }
            makedirs (tree ++ [made]) path rest
          else .error tree

/-- The directories of a path that are not there yet: `os.makedirs` recurses through them. -/
def missing (tree : List (Node Key)) (path : Path) : Nat :=
  (List.range path.length).countP fun count =>
    (lookup tree (volume.key (path.take (count + 1)))).isNone

/-- `os.open` of a file that must be new. -/
def opens (tree : List (Node Key)) (path : Path) : Bool :=
  (lookup tree (volume.key path)).isNone && volume.accepts path

/-- The new file. -/
def fileNode (tree : List (Node Key)) (path : Path) (content : Bytes) : Node Key where
  key := volume.key path
  spelled := spelling tree (volume.key path.dropLast) ++ path.getLast?.toList
  content := some content

/-- `dir_owner` and `checked_dirs`. -/
structure Checks (Key : Type) where
  owner : List (List Key × Path)
  checked : List Path

/-- `dir_owner.setdefault`. -/
def Checks.setDefault (checks : Checks Key) (key : List Key) (rel : Path) : Path × Checks Key :=
  match checks.owner.lookup key with
  | some owner => (owner, checks)
  | none => (rel, { checks with owner := (key, rel) :: checks.owner })

/-- The walk from a directory up to the run directory; the last component comes first. -/
def walk (tree : List (Node Key)) (path : Str) (checks : Checks Key)
    : List Str → Except Rejection (Checks Key)
  | [] => .ok checks
  | name :: up =>
      let rel := (name :: up).reverse
      if rel ∈ checks.checked then .ok checks
      else if (lookup tree (volume.key rel)).isNone then .error (.statFailed path)
      else
        let (owner, checks) := checks.setDefault (volume.key rel) rel
        if owner ≠ rel then .error (.collides path owner)
        else walk tree path { checks with checked := rel :: checks.checked } up

-- The export

structure Export (Key : Type) where
  tree : List (Node Key)
  checks : Checks Key
  totalBytes : Nat
  written : Nat

def Export.start : Export Key :=
  { tree := [], checks := { owner := [], checked := [] }, totalBytes := 0, written := 0 }

/-- What the export depends on: the file system, Unicode, the blobs that git answers with (or as
much of one as it gives before it fails), the cap on their bytes, and how many directories deep the
interpreter lets `os.makedirs`, `os.walk` and `shutil.rmtree` recurse.
-/
structure Setup (Key : Type) where
  volume : Volume Key
  unicode : Unicode
  blob : Str → Except Bytes Bytes
  maxBytes : Nat
  makeDepth : Nat
  walkDepth : Nat
  removeDepth : Nat

variable (setup : Setup Key)

def isGitlink (entry : Entry) : Bool :=
  entry.otype = "commit".toList && entry.mode = "160000".toList

def isBlob (entry : Entry) : Bool :=
  entry.otype = "blob".toList

def blobModes : List Str :=
  ["100644".toList, "100755".toList, "120000".toList]

local instance lawfulStr : LawfulBEq Str :=
  inferInstance

/-- A failure, and what it leaves in the run directory. -/
abbrev Failure (Key : Type) :=
  Rejection × List (Node Key)

/-- A round of the loop over the entries. -/
def exportEntry (state : Export Key) (entry : Entry) : Except (Failure Key) (Export Key) :=
  let path := components entry.path
  let parent := path.dropLast
  if isGitlink entry then .ok state
  else if !isBlob entry then .error (.entryType entry.otype entry.path, state.tree)
  else if entry.mode ∉ blobModes then .error (.blobMode entry.mode entry.path, state.tree)
  else
    match verifyEntryPath setup.unicode entry.path with
    | some rejection => .error (rejection, state.tree)
    | none =>
        if setup.makeDepth < missing setup.volume state.tree parent then
          .error (.recursion, state.tree)
        else
          match makedirs setup.volume state.tree [] parent with
          | .error tree => .error (.mkdirFailed entry.path, tree)
          | .ok tree =>
              match walk setup.volume tree entry.path state.checks parent.reverse with
              | .error rejection => .error (rejection, tree)
              | .ok checks =>
                  let remaining := setup.maxBytes - state.totalBytes
                  let written (content : Bytes) : List (Node Key) :=
                    tree ++ [fileNode setup.volume tree path content]
                  if !isTip entry.sha then .error (.nonHexSha entry.path entry.sha, tree)
                  else if !opens setup.volume tree path then .error (.createFailed entry.path, tree)
                  else
                    match setup.blob entry.sha with
                    | .error partially => .error (.noBlob entry.sha, written partially)
                    | .ok content =>
                        if remaining < content.length then
                          .error (.byteCap content.length remaining, written [])
                        else
                          .ok
                            {
                              tree := written content
                              checks := checks
                              totalBytes := state.totalBytes + content.length
                              written := state.written + 1
                            }

def exportEntries : Export Key → List Entry → Except (Failure Key) (Export Key)
  | state, [] => .ok state
  | state, entry :: rest =>
      match exportEntry setup state entry with
      | .error failure => .error failure
      | .ok state => exportEntries state rest

/-- Some directory is nested deeper than `os.walk` or `shutil.rmtree` can go. -/
def deeper (depth : Nat) (tree : List (Node Key)) : Bool :=
  tree.any fun node => node.content.isNone && depth < node.spelled.length

/-- A run directory. The modes are those that the last walk sets; before it they are not followed.
-/
structure RunDir (Key : Type) where
  tree : List (Node Key)
  modes : List (Path × Nat)

/-- The modes behind the last walk: files can be read, directories entered, by the owner only. -/
def lastModes (tree : List (Node Key)) : List (Path × Nat) :=
  ([], 0o500) :: tree.map fun node => (node.spelled, if node.content.isNone then 0o500 else 0o400)

end Disk

-- What a listing says

section Listings

variable {Key : Type} [DecidableEq Key] (setup : Setup Key)

/-- A file that the entry of a blob stands for. -/
def blobFile (entry : Entry) : Path × Bytes :=
  (components entry.path, (setup.blob entry.sha).toOption.getD [])

def blobFiles (entries : List Entry) : List (Path × Bytes) :=
  (entries.filter isBlob).map (blobFile setup)

/-- A directory that leads to one of the files. -/
def IsDir (files : List (Path × Bytes)) (path : Path) : Prop :=
  path ≠ [] ∧ ∃ file ∈ files, path <+: file.1 ∧ path ≠ file.1

/-- Neither file is, or leads through, what the file system takes for the other, or for a directory
that leads to the other and has another path.
-/
def Apart (volume : Volume Key) (first second : Path) : Prop :=
  ∀ above below,
    above ≠ []
    → above <+: first
    → below <+: second
    → volume.key above = volume.key below
    → above = below ∧ above ≠ first ∧ below ≠ second

/-- The entry of a blob is sound by itself. -/
structure Sound (entry : Entry) : Prop where
  blob : isBlob entry
  mode : entry.mode ∈ blobModes
  path : verifyEntryPath setup.unicode entry.path = none
  sha : isTip entry.sha
  content : (setup.blob entry.sha).isOk
  accepted : ∀ path, path ≠ [] → path <+: components entry.path → setup.volume.accepts path

def bytes (files : List (Path × Bytes)) : Nat :=
  (files.map fun file => file.2.length).sum

/-- The directories of no blob are nested deeper than this. -/
def Nested (depth : Nat) (entries : List Entry) : Prop :=
  ∀ entry ∈ entries, isBlob entry → (components entry.path).dropLast.length ≤ depth

omit [DecidableEq Key] in
theorem Nested.tail {depth : Nat} {entry : Entry} {entries : List Entry}
    (nested : Nested depth (entry :: entries))
    : Nested depth entries :=
  fun other mem => nested other (List.mem_cons_of_mem entry mem)

end Listings

-- Trees on the disk

section Trees

variable {Key : Type} [DecidableEq Key] {volume : Volume Key} {tree made : List (Node Key)}
  {key : List Key} {node : Node Key} {above rest path : Path}

/-- Every node is found under its own spelling, and no two nodes are one to the file system. -/
structure Spelled (volume : Volume Key) (tree : List (Node Key)) : Prop where
  key : ∀ node ∈ tree, node.key = volume.key node.spelled
  nodup : (tree.map Node.key).Nodup
  filled : ∀ node ∈ tree, node.spelled ≠ []
  accepted : ∀ node ∈ tree, volume.accepts node.spelled

def Dir (tree : List (Node Key)) (path : Path) : Prop :=
  ∃ node ∈ tree, node.content = none ∧ node.spelled = path

/-- The regular files below the run directory. -/
def regularFiles (tree : List (Node Key)) : List (Path × Bytes) :=
  tree.filterMap fun node => node.content.map fun content => (node.spelled, content)

omit [DecidableEq Key] in
theorem key_length (volume : Volume Key) (path : Path) : (volume.key path).length = path.length :=
  List.length_map _

omit [DecidableEq Key] in
theorem length_of_key {other : Path} (same : volume.key path = volume.key other)
    : path.length = other.length := by
  rw [← key_length volume path, same, key_length]

theorem lookup_some (found : lookup tree key = some node) : node ∈ tree ∧ node.key = key :=
  ⟨List.mem_of_find?_eq_some found, by simpa using List.find?_some found⟩

theorem lookup_none : lookup tree key = none ↔ ∀ node ∈ tree, node.key ≠ key := by
  simp [lookup]

theorem lookup_of_mem (nodup : (tree.map Node.key).Nodup) (mem : node ∈ tree)
    : lookup tree node.key = some node := by
  cases found : lookup tree node.key with
  | none => exact absurd rfl (lookup_none.mp found node mem)
  | some other =>
      obtain ⟨among, same⟩ := lookup_some found
      rw [List.inj_on_of_nodup_map nodup among mem same]

theorem lookup_append (front back : List (Node Key)) (key : List Key)
    : lookup (front ++ back) key = (lookup front key).or (lookup back key) :=
  List.find?_append

theorem Spelled.nodup_append (spelled : Spelled volume tree)
    (absent : lookup tree node.key = none)
    : ((tree ++ [node]).map Node.key).Nodup := by
  rw [List.map_append, List.nodup_append]
  refine ⟨spelled.nodup, List.nodup_singleton _, ?_⟩
  intro first mem second single same
  obtain ⟨other, among, rfl⟩ := List.mem_map.mp mem
  obtain rfl := List.mem_singleton.mp single
  exact lookup_none.mp absent other among same

/-- A node that is new, and spelled as it is found, keeps a tree spelled. -/
theorem Spelled.append (spelled : Spelled volume tree) (isKey : node.key = volume.key node.spelled)
    (absent : lookup tree node.key = none) (filled : node.spelled ≠ [])
    (accepted : volume.accepts node.spelled)
    : Spelled volume (tree ++ [node]) := by
  have each {holds : Node Key → Prop} (old : ∀ node ∈ tree, holds node) (new : holds node)
      : ∀ other ∈ tree ++ [node], holds other := by
    intro other mem
    rcases List.mem_append.mp mem with among | single
    · exact old other among
    · exact List.mem_singleton.mp single ▸ new
  exact ⟨each spelled.key isKey, spelled.nodup_append absent, each spelled.filled filled,
    each spelled.accepted accepted⟩

/-- A directory is spelled by its path, and so is the run directory. -/
theorem Spelled.spelling (spelled : Spelled volume tree) (isDir : above = [] ∨ Dir tree above)
    : spelling tree (volume.key above) = above := by
  rcases isDir with rfl | ⟨node, mem, -, rfl⟩
  · have absent : lookup tree (volume.key []) = none := by
      refine lookup_none.mpr fun node mem same => spelled.filled node mem ?_
      rw [spelled.key node mem] at same
      exact List.length_eq_zero_iff.mp (length_of_key same)
    rw [Staging.spelling, absent]
    rfl
  · rw [Staging.spelling, ← spelled.key node mem, lookup_of_mem spelled.nodup mem]
    rfl

omit [DecidableEq Key] in
theorem dir_append
    : Dir (tree ++ [node]) path
      ↔ Dir tree path ∨ node.content = none ∧ node.spelled = path := by
  simp only [Dir, List.mem_append, List.mem_singleton, or_and_right, exists_or, exists_eq_left]

/-- What lies between two paths. -/
def Between (above below path : Path) : Prop :=
  path <+: below ∧ above.length < path.length

theorem between_next {name : Str}
    : Between above (above ++ name :: rest) path
      ↔ path = above ++ [name] ∨ Between (above ++ [name]) (above ++ [name] ++ rest) path := by
  have whole : above ++ name :: rest = above ++ [name] ++ rest := by simp
  constructor
  · intro ⟨begins, longer⟩
    rw [whole] at begins
    rcases Nat.lt_or_ge (above ++ [name]).length path.length with longer | short
    · exact .inr ⟨begins, longer⟩
    · have within := List.prefix_of_prefix_length_le begins (List.prefix_append _ _) short
      refine .inl (within.eq_of_length ?_)
      rw [List.length_append, List.length_singleton] at short ⊢
      omega
  · rintro (rfl | ⟨begins, longer⟩)
    · exact ⟨whole ▸ List.prefix_append _ _, by simp⟩
    · refine ⟨whole ▸ begins, ?_⟩
      rw [List.length_append] at longer
      omega

/-- Where nothing is in the way, the directories are made as they are spelled; by induction on the
components that are left.
-/
theorem makedirs_spec (rest : Path) (spelled : Spelled volume tree)
    (isDir : above = [] ∨ Dir tree above)
    (clear
      : ∀ path,
          Between above (above ++ rest) path
          → ∀ node ∈ tree,
              node.key = volume.key path → node.spelled = path ∧ node.content = none)
    (accepted : ∀ path, Between above (above ++ rest) path → volume.accepts path)
    : ∃ made,
        makedirs volume tree above rest = .ok made
        ∧ Spelled volume made
        ∧ regularFiles made = regularFiles tree
        ∧ ∀ path, Dir made path ↔ Dir tree path ∨ Between above (above ++ rest) path := by
  induction rest generalizing tree above with
  | nil =>
      refine ⟨tree, rfl, spelled, rfl, fun path => (or_iff_left ?_).symm⟩
      intro ⟨begins, longer⟩
      rw [List.append_nil] at begins
      exact Nat.not_lt.mpr begins.length_le longer
  | cons name rest ih =>
      have here : Between above (above ++ name :: rest) (above ++ [name]) :=
        between_next.mpr (.inl rfl)
      have onward {path} (below : Between (above ++ [name]) (above ++ [name] ++ rest) path) :=
        between_next.mpr (.inr below)
      rw [makedirs]
      cases found : lookup tree (volume.key (above ++ [name])) with
      | some node =>
          obtain ⟨mem, isKey⟩ := lookup_some found
          obtain ⟨same, isNone⟩ := clear _ here node mem isKey
          have already : Dir tree (above ++ [name]) := ⟨node, mem, isNone, same⟩
          obtain ⟨made, run, sound, unchanged, dirs⟩ :=
            ih spelled (.inr already) (fun path below => clear path (onward below))
              fun path below => accepted path (onward below)
          refine ⟨made, by simpa [isNone] using run, sound, unchanged, fun path => ?_⟩
          rw [dirs, between_next]
          constructor
          · exact Or.imp_right .inr
          · rintro (old | rfl | below)
            · exact .inl old
            · exact .inl already
            · exact .inr below
      | none =>
          let made : Node Key :=
            {
              key := volume.key (above ++ [name])
              spelled := spelling tree (volume.key above) ++ [name]
              content := none
            }
          have isPath : made.spelled = above ++ [name] :=
            congrArg (· ++ [name]) (spelled.spelling isDir)
          have grown : Spelled volume (tree ++ [made]) :=
            spelled.append (by rw [isPath]) found (by rw [isPath]; simp)
              (by rw [isPath]; exact accepted _ here)
          have apart {path} (below : Between (above ++ [name]) (above ++ [name] ++ rest) path)
              : made.key ≠ volume.key path := fun same =>
            absurd below.2 (by rw [length_of_key same]; exact Nat.lt_irrefl _)
          obtain ⟨all, run, sound, unchanged, dirs⟩ := by
            refine ih grown (.inr (dir_append.mpr (.inr ⟨rfl, isPath⟩))) ?_
              fun path below => accepted path (onward below)
            intro path below node mem isKey
            rcases List.mem_append.mp mem with old | new
            · exact clear path (onward below) node old isKey
            · exact absurd (List.mem_singleton.mp new ▸ isKey) (apart below)
          refine ⟨all, by simpa [accepted _ here] using run, sound, ?_, fun path => ?_⟩
          · rw [unchanged, regularFiles, List.filterMap_append]
            exact List.append_nil _
          · rw [dirs, dir_append, isPath, between_next, or_assoc]
            refine or_congr_right (or_congr_left ?_)
            exact ⟨fun new => new.2.symm, fun same => ⟨rfl, same.symm⟩⟩

theorem lookup_grown (back : List (Node Key)) (found : lookup tree key = some node)
    : lookup (tree ++ back) key = some node := by
  rw [lookup_append, found]
  rfl

theorem makedirs_grows (run : makedirs volume tree above rest = .ok made)
    : ∃ back, made = tree ++ back := by
  induction rest generalizing tree above with
  | nil => exact ⟨[], by rw [List.append_nil]; exact (Except.ok.inj run).symm⟩
  | cons name rest ih =>
      rw [makedirs] at run
      dsimp only at run
      split at run
      · split at run
        · exact ih run
        · cases run
      · split at run
        · obtain ⟨back, same⟩ := ih run
          exact ⟨_ :: back, by rw [same, List.append_assoc]; rfl⟩
        · cases run

/-- Where the directories could be made, each is there, and was no file and accepted before; by
induction on the components that are left.
-/
theorem makedirs_some (run : makedirs volume tree above rest = .ok made)
    (below : Between above (above ++ rest) path)
    : (lookup made (volume.key path)).isSome
      ∧ (∀ node, lookup tree (volume.key path) = some node → node.content = none)
      ∧ (lookup tree (volume.key path) = none → volume.accepts path) := by
  induction rest generalizing tree above with
  | nil =>
      rw [List.append_nil] at below
      exact absurd below.2 (Nat.not_lt.mpr below.1.length_le)
  | cons name rest ih =>
      rw [makedirs] at run
      dsimp only at run
      rcases between_next.mp below with rfl | onward
      · cases found : lookup tree (volume.key (above ++ [name])) with
        | some node =>
            rw [found] at run
            dsimp only at run
            split at run
            · rename_i isNone
              obtain ⟨back, rfl⟩ := makedirs_grows run
              refine ⟨by rw [lookup_grown back found]; rfl, ?_, nofun⟩
              intro other same
              cases same
              exact Option.isNone_iff_eq_none.mp isNone
            · cases run
        | none =>
            rw [found] at run
            dsimp only at run
            split at run
            · rename_i accepted
              obtain ⟨back, rfl⟩ := makedirs_grows run
              refine ⟨?_, nofun, fun _ => accepted⟩
              rw [lookup_append, lookup_append, found]
              simp [lookup]
            · cases run
      · split at run
        · split at run
          · exact ih run onward
          · cases run
        · split at run
          · have here := ih run onward
            rw [lookup_append] at here
            have absent (spelled : Path)
                : lookup [Node.mk (volume.key (above ++ [name])) spelled none] (volume.key path)
                  = none := by
              refine lookup_none.mpr fun node mem same => ?_
              rw [List.mem_singleton.mp mem] at same
              exact absurd onward.2 (by rw [length_of_key same]; exact Nat.lt_irrefl _)
            rw [absent, Option.or_none] at here
            exact here
          · cases run

end Trees

-- The walk up to the run directory

section Walks

variable {Key : Type} [DecidableEq Key] {volume : Volume Key} {tree : List (Node Key)}
  {checks after : Checks Key} {known : Path → Prop} {path : Str}

/-- The directories that are checked, and each is the owner of what it is to the file system. -/
structure Covers (volume : Volume Key) (checks : Checks Key) (known : Path → Prop) : Prop where
  checked : ∀ dir, dir ∈ checks.checked ↔ known dir
  owner : ∀ dir, known dir → checks.owner.lookup (volume.key dir) = some dir
  owned : ∀ key dir, checks.owner.lookup key = some dir → known dir ∧ key = volume.key dir

theorem Covers.congr {other : Path → Prop} (covers : Covers volume checks known)
    (same : ∀ dir, known dir ↔ other dir)
    : Covers volume checks other :=
  funext (fun dir => propext (same dir)) ▸ covers

/-- A directory that nothing known collides with becomes known. -/
theorem Covers.add {rel : Path} (covers : Covers volume checks known)
    (absent : checks.owner.lookup (volume.key rel) = none)
    : Covers volume
        { owner := (volume.key rel, rel) :: checks.owner, checked := rel :: checks.checked }
        (fun dir => dir = rel ∨ known dir) where
  checked dir := by rw [List.mem_cons, covers.checked]
  owner dir isKnown := by
    rcases isKnown with rfl | isKnown
    · rw [List.lookup_cons_self]
    · have owned := covers.owner dir isKnown
      have other : (volume.key dir == volume.key rel) = false := by
        refine beq_eq_false_iff_ne.mpr fun same => ?_
        rw [same, absent] at owned
        cases owned
      rw [List.lookup_cons, other]
      exact owned
  owned key dir found := by
    rw [List.lookup_cons] at found
    split at found
    · rename_i same
      cases found
      exact ⟨.inl rfl, eq_of_beq same⟩
    · exact (covers.owned key dir found).imp_left .inr

/-- No directory on the way up is another one to the file system. -/
def Alone (volume : Volume Key) (known : Path → Prop) (dir : Path) : Prop :=
  ∀ above,
    above ≠ []
    → above <+: dir
    → ∀ other, known other → volume.key other = volume.key above → other = above

/-- The walk goes through exactly if no directory on the way collides with one that is known, though
it stops at the first that is; by induction on the components.
-/
theorem walk_spec (tree : List (Node Key)) (path : Str) (up : List Str)
    (covers : Covers volume checks known)
    (closed
      : ∀ dir above, dir <+: up.reverse → known dir → above ≠ [] → above <+: dir → known above)
    (there : ∀ dir, dir ≠ [] → dir <+: up.reverse → (lookup tree (volume.key dir)).isSome)
    : (∀ after, walk volume tree path checks up = .ok after
        → Alone volume known up.reverse
          ∧ Covers volume after fun dir => known dir ∨ dir ≠ [] ∧ dir <+: up.reverse)
      ∧ (Alone volume known up.reverse → ∃ after, walk volume tree path checks up = .ok after) := by
  induction up generalizing checks known with
  | nil =>
      have empty : ∀ dir : Path, ¬(dir ≠ [] ∧ dir <+: ([] : List Str).reverse) := fun dir both =>
        both.1 (List.prefix_nil.mp both.2)
      refine ⟨fun after run => ?_, fun _ => ⟨checks, rfl⟩⟩
      cases run
      refine ⟨fun above filled begins => absurd ⟨filled, begins⟩ (empty above), ?_⟩
      exact covers.congr fun dir => (or_iff_left (empty dir)).symm
  | cons name up ih =>
      have filled : (name :: up).reverse ≠ [] := by simp
      have shorter (dir : Path) (begins : dir <+: up.reverse)
          : dir.length < (name :: up).reverse.length := by
        have short := begins.length_le
        rw [List.length_reverse] at short ⊢
        exact Nat.lt_succ_of_le short
      have ending (dir : Path)
          : dir <+: (name :: up).reverse ↔ dir = (name :: up).reverse ∨ dir <+: up.reverse := by
        rw [List.reverse_cons]
        exact List.prefix_concat_iff
      rw [walk]
      generalize (name :: up).reverse = rel at *
      by_cases isKnown : known rel
      · have within (dir : Path) (both : dir ≠ [] ∧ dir <+: rel) : known dir :=
          closed rel dir (List.prefix_refl rel) isKnown both.1 both.2
        rw [if_pos ((covers.checked rel).mpr isKnown)]
        refine ⟨fun after run => ?_, fun _ => ⟨checks, rfl⟩⟩
        cases run
        refine ⟨fun above some_ begins other known_ same => ?_, ?_⟩
        · have owner := covers.owner above (within above ⟨some_, begins⟩)
          rw [← same, covers.owner other known_] at owner
          exact Option.some.inj owner
        · exact covers.congr fun dir => (or_iff_left_of_imp (within dir)).symm
      · have stat := there rel filled (List.prefix_refl rel)
        rw [if_neg fun mem => isKnown ((covers.checked rel).mp mem),
          if_neg (by simpa [← Option.isSome_iff_ne_none] using stat), Checks.setDefault]
        cases found : checks.owner.lookup (volume.key rel) with
        | some owner =>
            obtain ⟨ownerKnown, same⟩ := covers.owned _ _ found
            have other : owner ≠ rel := fun same => isKnown (same ▸ ownerKnown)
            dsimp only
            refine ⟨fun after run => ?_, fun alone => ?_⟩
            · rw [if_pos other] at run
              cases run
            · have collides := alone rel filled (List.prefix_refl rel) owner ownerKnown same.symm
              exact absurd collides other
        | none =>
            dsimp only
            rw [if_neg (not_not_intro rfl)]
            obtain ⟨sound, complete⟩ := by
              refine ih (covers.add found) ?_ fun dir some_ begins =>
                there dir some_ ((ending dir).mpr (.inr begins))
              intro dir above begins known_ some_ leads
              rcases known_ with rfl | known_
              · exact absurd (shorter _ begins) (Nat.lt_irrefl _)
              · exact .inr (closed dir above ((ending dir).mpr (.inr begins)) known_ some_ leads)
            refine ⟨fun after run => ?_, fun alone => complete ?_⟩
            · obtain ⟨alone, covered⟩ := sound after run
              refine ⟨fun above some_ begins other known_ same => ?_, covered.congr fun dir => ?_⟩
              · rcases (ending above).mp begins with rfl | onward
                · rw [← same, covers.owner other known_] at found
                  cases found
                · exact alone above some_ onward other (.inr known_) same
              · rw [ending, and_or_left]
                constructor
                · rintro ((rfl | old) | new)
                  · exact .inr (.inl ⟨filled, rfl⟩)
                  · exact .inl old
                  · exact .inr (.inr new)
                · rintro (old | ⟨-, rfl⟩ | new)
                  · exact .inl (.inr old)
                  · exact .inl (.inl rfl)
                  · exact .inr new
            · intro above some_ begins other known_ same
              rcases known_ with rfl | known_
              · have short := shorter above begins
                rw [length_of_key same] at short
                exact absurd short (Nat.lt_irrefl _)
              · exact alone above some_ ((ending above).mpr (.inr begins)) other known_ same

end Walks

-- The loop over the entries

section Loop

variable {Key : Type} [DecidableEq Key] {setup : Setup Key} {state next : Export Key}
  {entry : Entry} {entries : List Entry} {staged : List (Path × Bytes)}

/-- What a round has done for a blob. -/
structure Exports (setup : Setup Key) (state : Export Key) (entry : Entry) (next : Export Key)
    (tree : List (Node Key)) (checks : Checks Key) (content : Bytes)
    : Prop where
  blob : isBlob entry
  mode : entry.mode ∈ blobModes
  verified : verifyEntryPath setup.unicode entry.path = none
  shallow : missing setup.volume state.tree (components entry.path).dropLast ≤ setup.makeDepth
  made : makedirs setup.volume state.tree [] (components entry.path).dropLast = .ok tree
  walked
    : walk setup.volume tree entry.path state.checks (components entry.path).dropLast.reverse
      = .ok checks
  sha : isTip entry.sha
  opened : opens setup.volume tree (components entry.path)
  answered : setup.blob entry.sha = .ok content
  fits : content.length ≤ setup.maxBytes - state.totalBytes
  next
    : next
      = {
          tree := tree ++ [fileNode setup.volume tree (components entry.path) content]
          checks := checks
          totalBytes := state.totalBytes + content.length
          written := state.written + 1
        }

/-- All that a round can do. -/
theorem exportEntry_cases
    : exportEntry setup state entry = .ok next
      ↔ isGitlink entry ∧ next = state
        ∨ isGitlink entry = false
          ∧ ∃ tree checks content, Exports setup state entry next tree checks content := by
  constructor
  · intro run
    unfold exportEntry at run
    dsimp only at run
    split at run
    · rename_i link
      exact .inl ⟨link, (Except.ok.inj run).symm⟩
    rename_i link
    refine .inr ⟨Bool.eq_false_iff.mpr link, ?_⟩
    split at run
    · cases run
    rename_i blob
    split at run
    · cases run
    rename_i mode
    split at run
    · cases run
    rename_i verified
    split at run
    · cases run
    rename_i shallow
    split at run
    · cases run
    rename_i tree made
    split at run
    · cases run
    rename_i checks walked
    split at run
    · cases run
    rename_i sha
    split at run
    · cases run
    rename_i opened
    split at run
    · cases run
    rename_i content answered
    split at run
    · cases run
    rename_i fits
    exact ⟨tree, checks, content, by simpa using blob, by simpa using mode, verified,
      Nat.le_of_not_lt shallow, made, walked, by simpa using sha, by simpa using opened, answered,
      Nat.le_of_not_lt fits, (Except.ok.inj run).symm⟩
  · rintro (⟨link, rfl⟩ | ⟨link, tree, checks, content, exports⟩)
    · exact if_pos link
    · unfold exportEntry
      simp [link, exports.blob, exports.mode, exports.verified, Nat.not_lt.mpr exports.shallow,
        exports.made, exports.walked, exports.sha, exports.opened, exports.answered,
        Nat.not_lt.mpr exports.fits, exports.next]

/-- What the export has done so far: these files, and the directories that lead to them. -/
structure Holds (setup : Setup Key) (staged : List (Path × Bytes)) (state : Export Key) : Prop where
  spelled : Spelled setup.volume state.tree
  files : regularFiles state.tree = staged
  dirs : ∀ path, Dir state.tree path ↔ IsDir staged path
  checks : Covers setup.volume state.checks (IsDir staged)
  total : state.totalBytes = bytes staged
  written : state.written = staged.length

theorem components_ne_nil (path : Str) : components path ≠ [] :=
  List.splitOn_ne_nil _ _

theorem prefix_dropLast {above path : Path} (filled : path ≠ [])
    : above <+: path.dropLast ↔ above <+: path ∧ above ≠ path := by
  obtain ⟨front, last, rfl⟩ := (List.eq_nil_or_concat' path).resolve_left filled
  rw [List.dropLast_concat, List.prefix_concat_iff]
  constructor
  · intro begins
    refine ⟨.inr begins, fun same => ?_⟩
    have short := begins.length_le
    rw [same, List.length_append] at short
    exact Nat.not_succ_le_self _ short
  · rintro ⟨rfl | begins, other⟩
    · exact absurd rfl other
    · exact begins

theorem between_dropLast {above path : Path} (filled : path ≠ [])
    : Between [] ([] ++ path.dropLast) above ↔ above ≠ [] ∧ above <+: path ∧ above ≠ path := by
  rw [Between, List.nil_append, prefix_dropLast filled, and_comm]
  exact and_congr_left fun _ => List.length_pos_iff

variable {path : Path}

theorem isDir_append {file : Path × Bytes}
    : IsDir (staged ++ [file]) path
      ↔ IsDir staged path ∨ path ≠ [] ∧ path <+: file.1 ∧ path ≠ file.1 := by
  simp only [IsDir, List.mem_append, List.mem_singleton, or_and_right, exists_or, exists_eq_left,
    and_or_left]

variable {tree : List (Node Key)}

omit [DecidableEq Key] in
theorem mem_files {file : Path × Bytes}
    : file ∈ regularFiles tree
      ↔ ∃ node ∈ tree, node.content = some file.2 ∧ node.spelled = file.1 := by
  simp only [regularFiles, List.mem_filterMap, Option.map_eq_some_iff]
  constructor
  · rintro ⟨node, mem, content, isContent, rfl⟩
    exact ⟨node, mem, isContent, rfl⟩
  · rintro ⟨node, mem, isContent, same⟩
    exact ⟨node, mem, file.2, isContent, by rw [same]⟩

/-- A node leads to one of the files, or is one. -/
theorem Holds.leads {node : Node Key} (holds : Holds setup staged state)
    (mem : node ∈ state.tree)
    : ∃ file ∈ staged, node.spelled <+: file.1 ∧ (node.content = none ↔ node.spelled ≠ file.1) := by
  cases content : node.content with
  | none =>
      obtain ⟨-, file, among, begins, other⟩ :=
        (holds.dirs node.spelled).mp ⟨node, mem, content, rfl⟩
      exact ⟨file, among, begins, by simpa using other⟩
  | some content' =>
      have among : (node.spelled, content') ∈ staged :=
        holds.files ▸ mem_files.mpr ⟨node, mem, content, rfl⟩
      exact ⟨_, among, List.prefix_refl _, by simp⟩

/-- What stands on the disk is apart from a new file whose directories could be made. -/
theorem Holds.clear (holds : Holds setup staged state)
    (apart : ∀ file ∈ staged, Apart setup.volume file.1 path) {below : Path}
    (begins : below <+: path) {node : Node Key} (mem : node ∈ state.tree)
    (isKey : node.key = setup.volume.key below)
    : node.spelled = below ∧ node.content = none ∧ below ≠ path := by
  obtain ⟨file, among, leads, isDir⟩ := holds.leads mem
  rw [holds.spelled.key node mem] at isKey
  obtain ⟨same, other, part⟩ :=
    apart file among _ below (holds.spelled.filled node mem) leads begins isKey
  exact ⟨same, isDir.mpr other, part⟩

theorem IsDir.above {dir above : Path} (isDir : IsDir staged dir) (filled : above ≠ [])
    (begins : above <+: dir)
    : IsDir staged above := by
  obtain ⟨-, file, among, leads, other⟩ := isDir
  refine ⟨filled, file, among, begins.trans leads, fun same => other ?_⟩
  exact leads.eq_of_length (Nat.le_antisymm leads.length_le (same ▸ begins.length_le))

theorem not_gitlink (blob : isBlob entry) : isGitlink entry = false := by
  have otype : entry.otype = "blob".toList := by simpa [isBlob] using blob
  simp [isGitlink, otype]

theorem bytes_append (file : Path × Bytes)
    : bytes (staged ++ [file]) = bytes staged + file.2.length := by
  simp [bytes]

/-- The walk finds the parents of a new file in order exactly if they are apart from what is there.
-/
theorem Holds.walk (holds : Holds setup staged state) (filled : path ≠ [])
    (made : makedirs setup.volume state.tree [] path.dropLast = .ok tree)
    : (∀ checks,
          Staging.walk setup.volume tree entry.path state.checks path.dropLast.reverse = .ok checks
          → Alone setup.volume (IsDir staged) path.dropLast
            ∧ ∀ content, Covers setup.volume checks (IsDir (staged ++ [(path, content)])))
      ∧ (Alone setup.volume (IsDir staged) path.dropLast
        → ∃ checks,
            Staging.walk setup.volume tree entry.path state.checks path.dropLast.reverse
              = .ok checks) := by
  have spec := walk_spec tree entry.path path.dropLast.reverse holds.checks
    (fun dir above _ isDir some_ begins => isDir.above some_ begins) (by
      intro dir some_ begins
      rw [List.reverse_reverse] at begins
      exact (makedirs_some made ⟨begins, List.length_pos_iff.mpr some_⟩).1)
  rw [List.reverse_reverse] at spec
  refine ⟨fun checks run => ?_, spec.2⟩
  obtain ⟨alone, covers⟩ := spec.1 checks run
  refine ⟨alone, fun content => covers.congr fun dir => ?_⟩
  rw [isDir_append, prefix_dropLast filled]

/-- The directories of a new file that is apart from what is there. -/
theorem Holds.made (holds : Holds setup staged state) (filled : path ≠ [])
    (apart : ∀ file ∈ staged, Apart setup.volume file.1 path)
    (accepted : ∀ above, above ≠ [] → above <+: path → setup.volume.accepts above)
    : ∃ tree,
        makedirs setup.volume state.tree [] path.dropLast = .ok tree
        ∧ Spelled setup.volume tree
        ∧ regularFiles tree = staged
        ∧ ∀ dir, Dir tree dir ↔ IsDir staged dir ∨ dir ≠ [] ∧ dir <+: path ∧ dir ≠ path := by
  have made := makedirs_spec path.dropLast holds.spelled (.inl rfl)
  simp only [between_dropLast filled, holds.dirs, holds.files] at made
  refine made (fun above between node mem isKey => ?_) fun above between =>
    accepted above between.1 between.2.1
  obtain ⟨same, isDir, -⟩ := holds.clear apart between.2.1 mem isKey
  exact ⟨same, isDir⟩

/-- Nothing is where a new file goes that is apart from the others. -/
theorem absent_of_apart {volume : Volume Key} (spelled : Spelled volume tree)
    (isFiles : regularFiles tree = staged)
    (dirs : ∀ dir, Dir tree dir ↔ IsDir staged dir ∨ dir ≠ [] ∧ dir <+: path ∧ dir ≠ path)
    (apart : ∀ file ∈ staged, Apart volume file.1 path)
    : lookup tree (volume.key path) = none := by
  refine lookup_none.mpr fun node mem isKey => ?_
  have some_ := spelled.filled node mem
  rw [spelled.key node mem] at isKey
  cases isContent : node.content with
  | some content =>
      have among : (node.spelled, content) ∈ staged :=
        isFiles ▸ mem_files.mpr ⟨node, mem, isContent, rfl⟩
      exact (apart _ among _ path some_ (List.prefix_refl _) (List.prefix_refl _) isKey).2.1 rfl
  | none =>
      rcases (dirs node.spelled).mp ⟨node, mem, isContent, rfl⟩ with old | ⟨-, begins, other⟩
      · obtain ⟨-, file, among, leads, -⟩ := old
        exact (apart file among _ path some_ leads (List.prefix_refl _) isKey).2.2 rfl
      · exact other (begins.eq_of_length (length_of_key isKey))

/-- No more directories are missing than the path has components. -/
theorem missing_le (volume : Volume Key) (tree : List (Node Key)) (path : Path)
    : missing volume tree path ≤ path.length := by
  have counted
      : missing volume tree path ≤ (List.range path.length).length :=
    List.countP_le_length
  rwa [List.length_range] at counted

/-- A sound blob that is apart from the files so far is exported, within the cap. -/
theorem Holds.step (holds : Holds setup staged state) (sound : Sound setup entry)
    (shallow : missing setup.volume state.tree (components entry.path).dropLast ≤ setup.makeDepth)
    (apart : ∀ file ∈ staged, Apart setup.volume file.1 (components entry.path))
    (fits : bytes (staged ++ [blobFile setup entry]) ≤ setup.maxBytes)
    : ∃ next,
        exportEntry setup state entry = .ok next
        ∧ Holds setup (staged ++ [blobFile setup entry]) next := by
  obtain ⟨content, answered⟩ : ∃ content, setup.blob entry.sha = .ok content := by
    have isOk := sound.content
    cases answered : setup.blob entry.sha with
    | ok content => exact ⟨content, rfl⟩
    | error _ =>
        rw [answered] at isOk
        cases isOk
  have isFile : blobFile setup entry = (components entry.path, content) := by
    rw [blobFile, answered]
    rfl
  have filled := components_ne_nil entry.path
  rw [isFile] at fits ⊢
  obtain ⟨tree, made, spelled, isFiles, dirs⟩ := holds.made filled apart sound.accepted
  have alone : Alone setup.volume (IsDir staged) (components entry.path).dropLast := by
    intro above _ begins other ⟨some_, file, among, leads, _⟩ same
    have onward := begins.trans (List.dropLast_prefix (components entry.path))
    exact (apart file among other above some_ leads onward same).1
  obtain ⟨checks, walked⟩ := (holds.walk filled made).2 alone
  have covers := ((holds.walk filled made).1 checks walked).2 content
  have absent := absent_of_apart spelled isFiles dirs apart
  have parent
      : (components entry.path).dropLast = [] ∨ Dir tree (components entry.path).dropLast := by
    refine or_iff_not_imp_left.mpr fun some_ => (dirs _).mpr (.inr ⟨some_, ?_⟩)
    exact (prefix_dropLast filled).mp (List.prefix_refl _)
  have isSpelled
      : (fileNode setup.volume tree (components entry.path) content).spelled
        = components entry.path := by
    rw [fileNode, spelled.spelling parent, List.getLast?_eq_some_getLast filled]
    exact List.dropLast_append_getLast filled
  have takes := sound.accepted _ filled (List.prefix_refl _)
  rw [bytes_append, ← holds.total] at fits
  have exports : Exports setup state entry _ tree checks content :=
    ⟨sound.blob, sound.mode, sound.path, shallow, made, walked, sound.sha,
      by rw [opens, absent, takes]; rfl, answered, Nat.le_sub_of_add_le' fits, rfl⟩
  have run := exportEntry_cases.mpr
    (.inr ⟨not_gitlink sound.blob, tree, checks, content, exports⟩)
  refine ⟨_, run, ?_, ?_, fun dir => ?_, covers, ?_, ?_⟩
  · exact spelled.append (by rw [isSpelled]; rfl) absent (by rw [isSpelled]; exact filled)
      (by rw [isSpelled]; exact takes)
  · rw [regularFiles, List.filterMap_append, ← regularFiles, isFiles]
    exact congrArg (fun path => staged ++ [(path, content)]) isSpelled
  · rw [dir_append, dirs, isDir_append]
    exact or_iff_left nofun
  · rw [bytes_append, ← holds.total]
  · rw [List.length_append, ← holds.written]
    rfl

/-- What is exported is sound, apart from the files so far, and within the cap. -/
theorem Exports.inv (holds : Holds setup staged state) {checks : Checks Key} {content : Bytes}
    (exports : Exports setup state entry next tree checks content)
    (within : state.totalBytes ≤ setup.maxBytes)
    : Sound setup entry
      ∧ (∀ file ∈ staged, Apart setup.volume file.1 (components entry.path))
      ∧ bytes (staged ++ [blobFile setup entry]) ≤ setup.maxBytes := by
  have filled := components_ne_nil entry.path
  obtain ⟨alone, -⟩ := (holds.walk filled exports.made).1 checks exports.walked
  obtain ⟨absent, takes⟩ := Bool.and_eq_true_iff.mp exports.opened
  obtain ⟨back, grown⟩ := makedirs_grows exports.made
  -- A path to the new file is no file, and a directory there has that path.
  have onto {below : Path} (some_ : below ≠ []) (begins : below <+: components entry.path)
      {node : Node Key} (mem : node ∈ state.tree) (isKey : node.key = setup.volume.key below)
      : node.content = none ∧ node.spelled = below ∧ below ≠ components entry.path := by
    have found : lookup state.tree (setup.volume.key below) = some node :=
      isKey ▸ lookup_of_mem holds.spelled.nodup mem
    have other : below ≠ components entry.path := by
      rintro rfl
      rw [grown, lookup_grown back found] at absent
      cases absent
    have between := (between_dropLast filled).mpr ⟨some_, begins, other⟩
    have isNone := (makedirs_some exports.made between).2.1 node found
    have isDir := (holds.dirs node.spelled).mp ⟨node, mem, isNone, rfl⟩
    rw [holds.spelled.key node mem] at isKey
    exact ⟨isNone,
      alone below some_ ((prefix_dropLast filled).mpr ⟨begins, other⟩) _ isDir isKey, other⟩
  refine ⟨⟨exports.blob, exports.mode, exports.verified, exports.sha, ?_, ?_⟩, ?_, ?_⟩
  · rw [exports.answered]
    rfl
  · intro above some_ begins
    by_cases whole : above = components entry.path
    · exact whole ▸ takes
    have between := (between_dropLast filled).mpr ⟨some_, begins, whole⟩
    cases found : lookup state.tree (setup.volume.key above) with
    | none => exact (makedirs_some exports.made between).2.2 found
    | some node =>
        obtain ⟨mem, isKey⟩ := lookup_some found
        exact (onto some_ begins mem isKey).2.1 ▸ holds.spelled.accepted node mem
  · intro file among above below some_ leads begins same
    have some' : below ≠ [] := by
      rintro rfl
      exact some_ (List.length_eq_zero_iff.mp (length_of_key same))
    by_cases isFile : above = file.1
    · obtain ⟨node, mem, isContent, isSpelled⟩ := mem_files.mp (holds.files ▸ among)
      have isKey : node.key = setup.volume.key below := by
        rw [holds.spelled.key node mem, isSpelled, ← isFile, same]
      rw [(onto some' begins mem isKey).1] at isContent
      cases isContent
    · obtain ⟨node, mem, -, isSpelled⟩ :=
        (holds.dirs above).mpr ⟨some_, file, among, leads, isFile⟩
      have isKey : node.key = setup.volume.key below := by
        rw [holds.spelled.key node mem, isSpelled, same]
      obtain ⟨-, isBelow, part⟩ := onto some' begins mem isKey
      exact ⟨isSpelled.symm.trans isBelow, isFile, part⟩
  · have fits := exports.fits
    rw [bytes_append, ← holds.total, blobFile, exports.answered]
    change state.totalBytes + content.length ≤ _
    omega

omit [DecidableEq Key] in
theorem blobFiles_cons (blob : isBlob entry)
    : blobFiles setup (entry :: entries) = blobFile setup entry :: blobFiles setup entries := by
  simp [blobFiles, blob]

omit [DecidableEq Key] in
theorem blobFiles_link (setup : Setup Key) (entries : List Entry) (link : isBlob entry = false)
    : blobFiles setup (entry :: entries) = blobFiles setup entries := by
  simp [blobFiles, link]

theorem not_blob (link : isGitlink entry) : isBlob entry = false := by
  have otype : entry.otype = "commit".toList := by
    simp only [isGitlink, Bool.and_eq_true, decide_eq_true_eq] at link
    exact link.1
  simp [isBlob, otype]

/-- What is asked of the entries that are left, behind the files so far. -/
structure Onward (setup : Setup Key) (staged : List (Path × Bytes)) (entries : List Entry)
    : Prop where
  sound : ∀ entry ∈ entries, isGitlink entry ∨ Sound setup entry
  apart
    : ((staged ++ blobFiles setup entries).map Prod.fst).Pairwise (Apart setup.volume)
  fits : bytes (staged ++ blobFiles setup entries) ≤ setup.maxBytes

omit [DecidableEq Key] in
theorem onward_cons_blob (blob : isBlob entry)
    : Onward setup staged (entry :: entries)
      ↔ Sound setup entry ∧ Onward setup (staged ++ [blobFile setup entry]) entries := by
  have whole : staged ++ blobFiles setup (entry :: entries)
      = staged ++ [blobFile setup entry] ++ blobFiles setup entries := by
    simp [blobFiles_cons blob]
  constructor
  · intro ⟨sound, apart, fits⟩
    obtain ⟨here, later⟩ := List.forall_mem_cons.mp sound
    have notLink : ¬isGitlink entry := by simp [not_gitlink blob]
    exact ⟨here.resolve_left notLink, later, whole ▸ apart, whole ▸ fits⟩
  · intro ⟨here, later, apart, fits⟩
    exact ⟨List.forall_mem_cons.mpr ⟨.inr here, later⟩, whole ▸ apart, whole ▸ fits⟩

omit [DecidableEq Key] in
theorem onward_cons_link (link : isGitlink entry)
    : Onward setup staged (entry :: entries) ↔ Onward setup staged entries := by
  have same := blobFiles_link setup entries (not_blob link)
  constructor
  · intro ⟨sound, apart, fits⟩
    exact ⟨(List.forall_mem_cons.mp sound).2, same ▸ apart, same ▸ fits⟩
  · intro ⟨sound, apart, fits⟩
    exact ⟨List.forall_mem_cons.mpr ⟨.inl link, sound⟩, same ▸ apart, same ▸ fits⟩

omit [DecidableEq Key] in
theorem Onward.first (onward : Onward setup (staged ++ [blobFile setup entry]) entries)
    : (∀ file ∈ staged, Apart setup.volume file.1 (components entry.path))
      ∧ bytes (staged ++ [blobFile setup entry]) ≤ setup.maxBytes := by
  refine ⟨fun file among => ?_, ?_⟩
  · have apart := onward.apart
    rw [List.map_append, List.map_append, List.pairwise_append, List.pairwise_append] at apart
    exact apart.1.2.2 _ (List.mem_map_of_mem among) _ (by simp [blobFile])
  · have fits := onward.fits
    rw [bytes, List.map_append, List.sum_append] at fits
    exact Nat.le_trans (Nat.le_add_right _ _) fits

omit [DecidableEq Key] in
theorem Onward.start (apart : (staged.map Prod.fst).Pairwise (Apart setup.volume))
    (fits : bytes staged ≤ setup.maxBytes)
    : Onward setup staged [] :=
  ⟨nofun, by simpa [blobFiles] using apart, by simpa [blobFiles] using fits⟩

omit [DecidableEq Key] in
theorem Onward.before (onward : Onward setup staged entries)
    : (staged.map Prod.fst).Pairwise (Apart setup.volume) ∧ bytes staged ≤ setup.maxBytes := by
  have apart := onward.apart
  have fits := onward.fits
  rw [List.map_append, List.pairwise_append] at apart
  rw [bytes, List.map_append, List.sum_append] at fits
  exact ⟨apart.1, Nat.le_trans (Nat.le_add_right _ _) fits⟩

/-- Entries that are sound and apart from each other and from the files so far are exported, unless
they are nested too deep; and only such entries are. By induction on the entries.
-/
theorem Holds.run (entries : List Entry) (holds : Holds setup staged state)
    (before : Onward setup staged [])
    : (Onward setup staged entries
        → Nested setup.makeDepth entries
        → ∃ final, exportEntries setup state entries = .ok final)
      ∧ ∀ final,
          exportEntries setup state entries = .ok final
          → Onward setup staged entries
            ∧ Holds setup (staged ++ blobFiles setup entries) final := by
  induction entries generalizing staged state with
  | nil =>
      refine ⟨fun _ _ => ⟨state, rfl⟩, fun final run => ⟨before, ?_⟩⟩
      cases run
      simpa [blobFiles] using holds
  | cons entry entries ih =>
      cases step : exportEntry setup state entry with
      | error rejection =>
          have failed : exportEntries setup state (entry :: entries) = .error rejection := by
            rw [exportEntries, step]
          rw [failed]
          refine ⟨fun onward nested => ?_, nofun⟩
          rcases (List.forall_mem_cons.mp onward.sound).1 with link | sound
          · rw [exportEntry_cases.mpr (.inl ⟨link, rfl⟩)] at step
            cases step
          · obtain ⟨apart, fits⟩ := ((onward_cons_blob sound.blob).mp onward).2.first
            have shallow := Nat.le_trans (missing_le setup.volume state.tree _)
              (nested entry List.mem_cons_self sound.blob)
            obtain ⟨next, run, -⟩ := holds.step sound shallow apart fits
            rw [run] at step
            cases step
      | ok next =>
          have goesOn
              : exportEntries setup state (entry :: entries)
                = exportEntries setup next entries := by
            rw [exportEntries, step]
          rw [goesOn]
          rcases exportEntry_cases.mp step with ⟨link, rfl⟩ | ⟨_, tree, checks, content, exports⟩
          · rw [onward_cons_link link, blobFiles_link setup entries (not_blob link)]
            obtain ⟨goes, ends⟩ := ih holds before
            exact ⟨fun onward nested => goes onward nested.tail, ends⟩
          · have within : state.totalBytes ≤ setup.maxBytes := holds.total ▸ before.before.2
            obtain ⟨sound, apart, fits⟩ := exports.inv holds within
            obtain ⟨same, run, grown⟩ := holds.step sound exports.shallow apart fits
            rw [step] at run
            cases run
            have begun : Onward setup (staged ++ [blobFile setup entry]) [] := by
              refine .start ?_ fits
              rw [List.map_append, List.pairwise_append]
              refine ⟨before.before.1, List.pairwise_singleton _ _, ?_⟩
              intro first mem second single
              obtain ⟨file, among, rfl⟩ := List.mem_map.mp mem
              obtain rfl := List.mem_singleton.mp single
              exact apart file among
            have whole : staged ++ blobFile setup entry :: blobFiles setup entries
                = staged ++ [blobFile setup entry] ++ blobFiles setup entries := by simp
            rw [onward_cons_blob sound.blob, and_iff_right sound, blobFiles_cons sound.blob, whole]
            obtain ⟨goes, ends⟩ := ih grown begun
            exact ⟨fun onward nested => goes onward nested.tail, ends⟩

end Loop

-- Snapshots

variable {unicode : Unicode}

section Snapshots

variable {Key : Type} [DecidableEq Key] {setup : Setup Key} {entries : List Entry}
  {maxFiles maxMeta : Nat} {chunks : List Bytes} {exitCode : Int} {tree : List (Node Key)}

/-- A component that leads one directory down, and not into one of git's. -/
def PlainName (unicode : Unicode) (comp : Str) : Prop :=
  comp ≠ [] ∧ comp ≠ ['.'] ∧ comp ≠ ['.', '.'] ∧ isDotgit unicode comp = false

/-- Nothing of the tree is outside the run directory, or inside a directory of git's. -/
def Inside (unicode : Unicode) (tree : List (Node Key)) : Prop :=
  ∀ node ∈ tree, ∀ comp ∈ node.spelled, PlainName unicode comp

/-- The run directory holds the blobs of a listing, each at its path with its bytes, and no other
node but the directories that lead to them; no path leads outside, no two nodes are one to the file
system, and nothing can be written.
-/
structure Snapshot (setup : Setup Key) (entries : List Entry) (run : RunDir Key) : Prop where
  spelled : Spelled setup.volume run.tree
  inside : Inside setup.unicode run.tree
  files : regularFiles run.tree = blobFiles setup entries
  dirs : ∀ path, Dir run.tree path ↔ IsDir (blobFiles setup entries) path
  modes : run.modes = lastModes run.tree

omit [DecidableEq Key] in
theorem Inside.append {node : Node Key} (inside : Inside unicode tree)
    (plain : ∀ comp ∈ node.spelled, PlainName unicode comp)
    : Inside unicode (tree ++ [node]) := by
  intro other mem
  rcases List.mem_append.mp mem with old | new
  · exact inside other old
  · exact List.mem_singleton.mp new ▸ plain

theorem Inside.spelling (inside : Inside unicode tree) (key : List Key)
    : ∀ comp ∈ spelling tree key, PlainName unicode comp := by
  intro comp mem
  rw [Staging.spelling] at mem
  cases found : lookup tree key with
  | none =>
      rw [found] at mem
      cases mem
  | some node =>
      rw [found] at mem
      exact inside node (lookup_some found).1 comp mem

def sampleSha : Str :=
  List.replicate 40 'a'

end Snapshots

end Staging
