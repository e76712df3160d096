import Mathlib.Data.List.Nodup
import Myndaix.Curate.Content

/-! What an agent did to a staged corpus, told from the manifest of what was staged, and which of it
may be promoted.
-/

namespace Curate

open Text

inductive Op where
  | query
  | file
  | lint
deriving Repr, DecidableEq

/-- What is found under a path of the staging directory. -/
inductive Node where
  | file (data : Bytes)
  | directory
  | link (toDirectory : Bool)
  | special
deriving Repr, DecidableEq

namespace Node

/-- `p.is_dir()`, which follows links. -/
def isDir : Node → Bool
  | .directory => true
  | .link toDirectory => toDirectory
  | _ => false

end Node

/-- The staging directory as `sorted(staging.rglob("*"))` lists it, by relative path. -/
structure Staging where
  nodes : List (Str × Node)
  distinct : (nodes.map Prod.fst).Nodup

/-- The bytes of a regular file of the staging directory. -/
def Staging.data (staging : Staging) (rel : Str) : Option Bytes :=
  match staging.nodes.lookup rel with
  | some (.file data) => some data
  | _ => none

variable {Digest : Type} [DecidableEq Digest]

/-- The digests of the files that were staged. -/
abbrev Manifest (Digest : Type) : Type :=
  List (Str × Digest)

/-- The manifest of a corpus that was staged as it is here. -/
def manifestOf (sha256 : Bytes → Digest) (corpus : List (Str × Bytes)) : Manifest Digest :=
  corpus.map (fun file => (file.1, sha256 file.2))

structure Changes where
  newFiles : List Str
  indexModified : Bool
  violations : List Str
deriving Repr, DecidableEq

-- One file

def MANIFEST : Str :=
  "MANIFEST.txt".toList

def JOURNAL : Str :=
  ".curate-journal.json".toList

/-- The furniture of the workspace, which is neither judged nor promoted. -/
def isRuntimeArtifact (rel : Str) : Bool :=
  [MANIFEST, JOURNAL].contains rel
    || ((rel.splitOn '/').headD []) = ".claude".toList

/-- `str(Path(rel).parent)` of a path with a separator. -/
def parent (rel : Str) : Str :=
  ['/'].intercalate (rel.splitOn '/').dropLast

/-- What a listed file turns out to be. -/
inductive Finding where
  | untouched
  | index
  | fresh (data : Bytes)
  | violation (text : Str)
deriving Repr, DecidableEq

def examine (strings : Strings) (sha256 : Bytes → Digest) (manifest : Manifest Digest) (rel : Str)
    : Node → Finding
  | .file data =>
      match manifest.lookup rel with
      | some digest =>
          if sha256 data = digest then .untouched
          else if rel = INDEX then .index
          else
            .violation ("modified existing file ".toList ++ strings.repr rel
              ++ " (additive-only: updates go in a new dated update brief)".toList)
      | none =>
          if rel.contains '/' then
            .violation ("new file ".toList ++ strings.repr rel ++ " outside the top level".toList)
          else if !validNewFilename strings rel then
            .violation ("new file ".toList ++ strings.repr rel ++ " fails the name rule (".toList
              ++ NEW_FILE_RE_PATTERN ++ ")".toList)
          else .fresh data
  | _ => .violation (strings.repr rel ++ ": not a regular file".toList)

-- The classification

/-- `read_text` reads every kind of line end as a line feed. -/
def universalNewlines : Str → Str
  | '\r' :: '\n' :: rest => '\n' :: universalNewlines rest
  | '\r' :: rest => '\n' :: universalNewlines rest
  | char :: rest => char :: universalNewlines rest
  | [] => []

/-- The violations of one new file. -/
def newViolations (strings : Strings) (bases finalMd : List Str) (rel : Str) (data : Bytes)
    : List Str :=
  contentViolations strings rel data bases
    ++ (if rel = INDEX then indexViolations strings (strings.decodeReplace data) finalMd else [])

/-- The violations of a modified `index.md`; its dangling links count as those of an index. -/
def modifiedViolations (strings : Strings) (bases finalMd : List Str) (data : Bytes) : List Str :=
  indexViolations strings (universalNewlines (strings.decodeReplace data)) finalMd
    ++ (contentViolations strings INDEX data bases).filter
        (fun violation => !occursIn "ghost".toList violation)

def sortedByName (files : List (Str × Bytes)) : List (Str × Bytes) :=
  files.mergeSort (fun first second => decide (String.ofList first.1 ≤ String.ofList second.1))

/-- The Markdown files of the corpus with everything new. -/
def finalMd (strings : Strings) (manifest : Manifest Digest) (newNames : List (Str × Bytes))
    : List Str :=
  (manifest.map Prod.fst).filter (fun name => endsMd (strings.lower name)) ++ newNames.map Prod.fst

section Classification

variable (strings : Strings) (sha256 : Bytes → Digest) (staging : Staging)
  (manifest : Manifest Digest)

/-- The listed paths that are no furniture and no directory. -/
def present : List (Str × Node) :=
  staging.nodes.filter (fun entry => !isRuntimeArtifact entry.1 && !entry.2.isDir)

def createdDirectories : List Str :=
  let stagedDirs := ((manifest.map Prod.fst).filter (fun name => name.contains '/')).map parent
  (staging.nodes.filter (fun entry =>
      !isRuntimeArtifact entry.1 && entry.2.isDir && !stagedDirs.contains entry.1)).map
    (fun entry =>
      "created directory ".toList ++ strings.repr entry.1 ++ " (flat corpus only)".toList)

def deletedFiles : List Str :=
  ((manifest.map Prod.fst).filter (fun rel => !((present staging).map Prod.fst).contains rel)).map
    (fun rel => "deleted staged file ".toList ++ strings.repr rel)

def findings : List (Str × Finding) :=
  (present staging).map (fun entry =>
    (entry.1, examine strings sha256 manifest entry.1 entry.2))

def newNames : List (Str × Bytes) :=
  (findings strings sha256 staging manifest).filterMap (fun entry =>
    match entry.2 with
    | .fresh data => some (entry.1, data)
    | _ => none)

def classifyChanges (op : Op) : Changes :=
  let found := findings strings sha256 staging manifest
  let fresh := newNames strings sha256 staging manifest
  let final := finalMd strings manifest fresh
  let bases := mdBases strings final
  let judged := (sortedByName fresh).map (fun file =>
    (file.1, newViolations strings bases final file.1 file.2))
  let newFiles := (judged.filter (fun file => file.2.isEmpty)).map Prod.fst
  let indexModified := found.any (fun entry => entry.2 = .index)
  let violations :=
    createdDirectories strings staging manifest
      ++ deletedFiles strings staging manifest
      ++ found.filterMap (fun entry =>
          match entry.2 with
          | .violation text => some text
          | _ => none)
      ++ (judged.map Prod.snd).flatten
      ++ (if indexModified then
          modifiedViolations strings bases final ((staging.data INDEX).getD [])
        else [])
      ++ (if op = .lint && (!newFiles.isEmpty || indexModified) then
          ["lint dispatch is read-only — writes are never promoted from a lint".toList]
        else [])
  { newFiles, indexModified, violations }

-- What is accepted

/-- The validation accepts these bytes of the staging directory under this name. -/
inductive Accepted (rel : Str) (data : Bytes) : Prop where
  | fresh (listed : manifest.lookup rel = none) (flat : '/' ∉ rel)
    (named : validNewFilename strings rel = true)
    (clean
      : newViolations strings
            (mdBases strings (finalMd strings manifest (newNames strings sha256 staging manifest)))
            (finalMd strings manifest (newNames strings sha256 staging manifest)) rel data
        = [])
  | index (isIndex : rel = INDEX) (listed : ∃ digest, manifest.lookup rel = some digest)
    (clean
      : modifiedViolations strings
            (mdBases strings (finalMd strings manifest (newNames strings sha256 staging manifest)))
            (finalMd strings manifest (newNames strings sha256 staging manifest)) data
        = [])

end Classification

variable {strings : Strings} {sha256 : Bytes → Digest} {staging : Staging}
  {manifest : Manifest Digest} {op : Op} {rel : Str} {data : Bytes}

/-- A listing has one node for each path. -/
theorem Staging.data_of_mem (mem : (rel, Node.file data) ∈ staging.nodes)
    : staging.data rel = some data := by
  obtain ⟨before, after, same⟩ := List.append_of_mem mem
  have distinct := staging.distinct
  rw [same, List.map_append, List.nodup_append] at distinct
  have found : staging.nodes.lookup rel = some (.file data) := by
    refine List.lookup_eq_some_iff.mpr ⟨before, after, same, fun entry inside => ?_⟩
    have other := distinct.2.2 entry.1 (List.mem_map_of_mem inside) rel (by simp)
    simpa using other.symm
  rw [Staging.data, found]

/-- A file of the manifest is never new, and a new one has passed the name rule. -/
theorem examine_fresh {node : Node} (fresh : examine strings sha256 manifest rel node = .fresh data)
    : node = .file data ∧ manifest.lookup rel = none ∧ '/' ∉ rel
      ∧ validNewFilename strings rel = true := by
  unfold examine at fresh
  split at fresh
  · split at fresh
    · split at fresh
      · cases fresh
      · split at fresh <;> cases fresh
    · rename_i unlisted
      split at fresh
      · cases fresh
      · rename_i flat
        split at fresh
        · cases fresh
        · rename_i named
          cases fresh
          exact ⟨rfl, unlisted, by simpa using flat, by simpa using named⟩
  · cases fresh

/-- The index is a file, and one that was staged. -/
theorem examine_index {node : Node} (index : examine strings sha256 manifest rel node = .index)
    : rel = INDEX ∧ ∃ data, node = .file data ∧ ∃ digest, manifest.lookup rel = some digest := by
  unfold examine at index
  split at index
  · split at index
    · rename_i digest listed
      split at index
      · cases index
      · split at index
        · rename_i isIndex
          exact ⟨isIndex, _, rfl, digest, listed⟩
        · cases index
    · split at index
      · cases index
      · split at index <;> cases index
  · cases index

/-- A new file is one that was not staged, with a valid name. -/
theorem mem_newNames (mem : (rel, data) ∈ newNames strings sha256 staging manifest)
    : (rel, Node.file data) ∈ staging.nodes ∧ manifest.lookup rel = none ∧ '/' ∉ rel
      ∧ validNewFilename strings rel = true := by
  obtain ⟨⟨name, finding⟩, found, isFresh⟩ := List.mem_filterMap.mp mem
  obtain ⟨⟨_, node⟩, inside, same⟩ := List.mem_map.mp found
  cases same
  split at isFresh
  · rename_i fresh
    cases isFresh
    obtain ⟨rfl, rest⟩ := examine_fresh fresh
    exact ⟨(List.mem_filter.mp inside).1, rest⟩
  · cases isFresh

/-- Every new file is one whose staged bytes are accepted. -/
theorem accepted_new
    (mem : rel ∈ (classifyChanges strings sha256 staging manifest op).newFiles)
    : ∃ data, staging.data rel = some data
        ∧ Accepted strings sha256 staging manifest rel data := by
  obtain ⟨⟨name, violations⟩, isJudged, rfl⟩ := List.mem_map.mp mem
  obtain ⟨judged, isEmpty⟩ := List.mem_filter.mp isJudged
  obtain ⟨⟨_, data⟩, sorted, same⟩ := List.mem_map.mp judged
  cases same
  obtain ⟨inside, listed, flat, named⟩ := mem_newNames (List.mem_mergeSort.mp sorted)
  exact ⟨data, Staging.data_of_mem inside, .fresh listed flat named (by simpa using isEmpty)⟩

/-- Without violations a modified index is one whose staged bytes are accepted. -/
theorem accepted_index
    (clean : (classifyChanges strings sha256 staging manifest op).violations = [])
    (modified : (classifyChanges strings sha256 staging manifest op).indexModified = true)
    : (∃ data, staging.data INDEX = some data
        ∧ Accepted strings sha256 staging manifest INDEX data)
      ∧ ∃ digest, manifest.lookup INDEX = some digest := by
  obtain ⟨⟨name, finding⟩, found, isIndex⟩ := List.any_eq_true.mp modified
  obtain ⟨⟨_, node⟩, inside, same⟩ := List.mem_map.mp found
  cases same
  obtain ⟨rfl, data, rfl, listed⟩ := examine_index (of_decide_eq_true isIndex)
  have staged := Staging.data_of_mem (List.mem_filter.mp inside).1
  refine ⟨⟨data, staged, .index rfl listed ?_⟩, listed⟩
  have judged := clean
  simp only [classifyChanges, List.append_eq_nil_iff] at judged
  have index := judged.1.2
  have modified'
      : (findings strings sha256 staging manifest).any (fun entry => entry.2 = .index) = true :=
    modified
  rw [if_pos modified', staged] at index
  exact index

end Curate
