import Myndaix.Corpus.Outline
import Myndaix.Curate.Changes

/-! The workspace of an agent: the documents of a corpus, copied under their paths, and what was
copied.
-/

namespace Curate

open Corpus
open Text

-- Staging

/-- What the live corpus answers while it is copied. -/
structure Live where
  read : Str → Except Str Bytes
  size : Str → Option Nat

structure Staged where
  nodes : List (Str × Node)
  manifest : Manifest Str
deriving DecidableEq, Repr

/-- The directories above a path, from the top. -/
def ancestors (rel : Str) : List Str :=
  ((rel.splitOn '/').dropLast.inits.filter (fun parts => parts ≠ [])).map ['/'].intercalate

def put {Item : Type} (items : List (Str × Item)) (rel : Str) (item : Item) : List (Str × Item) :=
  items.filter (fun entry => entry.1 ≠ rel) ++ [(rel, item)]

/-- `mkdir(parents=True, exist_ok=True)`, which fails at anything else. -/
def makeDirs (nodes : List (Str × Node)) : List Str → Option (List (Str × Node))
  | [] => some nodes
  | dir :: dirs =>
      match nodes.lookup dir with
      | none => makeDirs (put nodes dir .directory) dirs
      | some .directory => makeDirs nodes dirs
      | some _ => none

/-- One document: it is skipped where it cannot be read any more, or written. -/
def stageDoc (live : Live) (staged : Staged) (doc : DocRecord) : Option Staged :=
  (makeDirs staged.nodes (ancestors doc.path)).map (fun nodes =>
    match live.read doc.path, nodes.lookup doc.path with
    | .error _, _ | .ok _, some .directory => { staged with nodes }
    | .ok data, _ =>
        {
          nodes := put nodes doc.path (.file data),
          manifest := put staged.manifest doc.path doc.contentSha
        })

/-- A line of `MANIFEST.txt`. -/
def manifestLine (strings : Strings) (live : Live) (rel : Str) : Str :=
  let size :=
    match live.size rel with
    | some size => size.repr.toList
    | none => "-1".toList
  let kind := if endsMd (strings.lower rel) then "md".toList else "asset".toList
  rel ++ '\t' :: size ++ '\t' :: kind

def manifestText (strings : Strings) (live : Live) (artifacts : List Str) : Str :=
  ['\n'].intercalate ((artifacts.mergeSort atMost).map (manifestLine strings live)) ++ ['\n']

/-- `stage_in`. -/
def stageIn (strings : Strings) (live : Live) (walk : WalkResult) : Option Staged :=
  (walk.docs.foldlM (stageDoc live) ⟨[], []⟩).bind (fun staged =>
    match staged.nodes.lookup MANIFEST with
    | some .directory => none
    | _ =>
        let text := manifestText strings live walk.artifacts
        some { staged with nodes := put staged.nodes MANIFEST (.file (utf8 text)) })

-- Entries

section Entries

variable {Item : Type} {items : List (Str × Item)} {rel other : Str} {item found : Item}

/-- What is found is listed. -/
theorem mem_of_lookup (found : items.lookup rel = some item) : (rel, item) ∈ items := by
  obtain ⟨before, after, rfl, -⟩ := List.lookup_eq_some_iff.mp found
  exact List.mem_append_right _ List.mem_cons_self

/-- Under distinct paths, what is listed is found. -/
theorem lookup_eq_some (distinct : (items.map Prod.fst).Nodup)
    : items.lookup rel = some item ↔ (rel, item) ∈ items := by
  refine ⟨mem_of_lookup, fun mem => ?_⟩
  obtain ⟨before, after, same⟩ := List.append_of_mem mem
  rw [same, List.map_append, List.nodup_append] at distinct
  refine List.lookup_eq_some_iff.mpr ⟨before, after, same, fun entry inside => ?_⟩
  have apart := distinct.2.2 entry.1 (List.mem_map_of_mem inside) rel (by simp)
  simpa using apart.symm

/-- A path is put over itself. -/
theorem mem_put : (other, found) ∈ put items rel item ↔ (other ≠ rel ∧ (other, found) ∈ items)
    ∨ (other = rel ∧ found = item) := by
  simp [put, and_comm]

/-- Paths stay distinct. -/
theorem nodup_put (distinct : (items.map Prod.fst).Nodup)
    : ((put items rel item).map Prod.fst).Nodup := by
  have others : ((items.filter (fun entry => entry.1 ≠ rel)).map Prod.fst).Nodup :=
    distinct.sublist (List.filter_sublist.map _)
  rw [put, List.map_append, List.nodup_append]
  refine ⟨others, List.nodup_singleton _, fun name inside last isLast same => ?_⟩
  obtain ⟨entry, mem, rfl⟩ := List.mem_map.mp inside
  have isRel : entry.1 = rel := same.trans (List.mem_singleton.mp isLast)
  simpa [isRel] using (List.mem_filter.mp mem).2

/-- What is not found is not listed. -/
theorem not_mem_of_lookup (none_ : items.lookup rel = none) : (rel, item) ∉ items := by
  intro mem
  simpa using List.lookup_eq_none_iff.mp none_ _ mem

end Entries

-- What staging leaves

variable {strings : Strings} {tables : Tables} {live : Live} {walk : WalkResult}
  {doc : DocRecord} {docs : List DocRecord} {staged staged' : Staged}
  {nodes nodes' : List (Str × Node)} {dirs : List Str} {rel : Str} {node : Node}

/-- Some directories are there as well, and nothing else has changed. -/
structure AddsDirs (nodes : List (Str × Node)) (dirs : List Str) (nodes' : List (Str × Node))
    : Prop where
  distinct : (nodes'.map Prod.fst).Nodup
  others : ∀ rel node, node ≠ .directory → ((rel, node) ∈ nodes' ↔ (rel, node) ∈ nodes)
  dirs : ∀ rel, (rel, .directory) ∈ nodes' ↔ (rel, .directory) ∈ nodes ∨ rel ∈ dirs

/-- Directories are added for a path, by induction on its parents. -/
theorem makeDirs_adds (distinct : (nodes.map Prod.fst).Nodup)
    (made : makeDirs nodes dirs = some nodes')
    : AddsDirs nodes dirs nodes' := by
  induction dirs generalizing nodes with
  | nil =>
      cases made
      exact ⟨distinct, fun _ _ _ => Iff.rfl, fun _ => by simp⟩
  | cons dir dirs ih =>
      rw [makeDirs] at made
      split at made
      · rename_i fresh
        obtain ⟨distinct', others, added⟩ := ih (nodup_put distinct) made
        refine ⟨distinct', fun rel node other => ?_, fun rel => ?_⟩
        · rw [others rel node other, mem_put]
          constructor
          · rintro (⟨-, old⟩ | ⟨-, isDir⟩)
            · exact old
            · exact absurd isDir other
          · intro old
            refine .inl ⟨fun same => ?_, old⟩
            exact not_mem_of_lookup fresh (same ▸ old)
        · rw [added, mem_put, List.mem_cons]
          constructor
          · rintro ((⟨-, old⟩ | ⟨same, -⟩) | behind)
            · exact .inl old
            · exact .inr (.inl same)
            · exact .inr (.inr behind)
          · rintro (old | same | behind)
            · refine .inl (.inl ⟨fun same => ?_, old⟩)
              exact not_mem_of_lookup fresh (same ▸ old)
            · exact .inl (.inr ⟨same, rfl⟩)
            · exact .inr behind
      · rename_i there
        obtain ⟨distinct', others, added⟩ := ih distinct made
        refine ⟨distinct', others, fun rel => ?_⟩
        rw [added, List.mem_cons]
        constructor
        · rintro (old | behind)
          · exact .inl old
          · exact .inr (.inr behind)
        · rintro (old | rfl | behind)
          · exact .inl old
          · exact .inl ((lookup_eq_some distinct).mp there)
          · exact .inr behind
      · cases made

/-- They are no files. -/
theorem AddsDirs.file (adds : AddsDirs nodes dirs nodes') {data : Bytes}
    : (rel, .file data) ∈ nodes' ↔ (rel, .file data) ∈ nodes :=
  adds.others rel (.file data) (by simp)

/-- The files are those of the manifest, with what was read, and the directories are above
documents.
-/
structure Mirrors (live : Live) (docs : List DocRecord) (staged : Staged) : Prop where
  distinct : (staged.nodes.map Prod.fst).Nodup
  keys : (staged.manifest.map Prod.fst).Nodup
  plain : ∀ entry ∈ staged.nodes, entry.2 = .directory ∨ ∃ data, entry.2 = .file data
  copied
    : ∀ rel data,
        (rel, .file data) ∈ staged.nodes
        → ∃ doc ∈ docs,
            doc.path = rel ∧ live.read rel = .ok data ∧ (rel, doc.contentSha) ∈ staged.manifest
  kept
    : ∀ entry ∈ staged.manifest,
        (∃ doc ∈ docs, doc.path = entry.1) ∧ ∃ data, (entry.1, .file data) ∈ staged.nodes
  made : ∀ entry ∈ staged.manifest, ∀ dir ∈ ancestors entry.1, (dir, .directory) ∈ staged.nodes
  above : ∀ rel, (rel, .directory) ∈ staged.nodes → ∃ doc ∈ docs, rel ∈ ancestors doc.path

/-- Nothing is staged of no documents. -/
theorem Mirrors.start (live : Live) : Mirrors live [] ⟨[], []⟩ where
  distinct := List.nodup_nil
  keys := List.nodup_nil
  plain := List.forall_mem_nil _
  copied _ _ mem := by cases mem
  kept := List.forall_mem_nil _
  made := List.forall_mem_nil _
  above _ mem := by cases mem

/-- Directories above a document keep it so. -/
theorem Mirrors.addsDirs (mirrors : Mirrors live docs staged)
    (adds : AddsDirs staged.nodes (ancestors doc.path) nodes)
    : Mirrors live (docs ++ [doc]) { staged with nodes } where
  distinct := adds.distinct
  keys := mirrors.keys
  plain entry mem := by
    by_cases isDir : entry.2 = .directory
    · exact .inl isDir
    · exact mirrors.plain entry ((adds.others entry.1 entry.2 isDir).mp mem)
  copied rel data mem := by
    obtain ⟨other, isDoc, same⟩ := mirrors.copied rel data (adds.file.mp mem)
    exact ⟨other, List.mem_append_left _ isDoc, same⟩
  kept entry mem := by
    obtain ⟨⟨other, isDoc, same⟩, data, inside⟩ := mirrors.kept entry mem
    exact ⟨⟨other, List.mem_append_left _ isDoc, same⟩, data, adds.file.mpr inside⟩
  made entry mem dir isAbove := (adds.dirs dir).mpr (.inl (mirrors.made entry mem dir isAbove))
  above rel mem := by
    rcases (adds.dirs rel).mp mem with old | isAbove
    · obtain ⟨other, isDoc, same⟩ := mirrors.above rel old
      exact ⟨other, List.mem_append_left _ isDoc, same⟩
    · exact ⟨doc, List.mem_append_right _ List.mem_cons_self, isAbove⟩

/-- A document keeps it so. -/
theorem Mirrors.stageDoc (mirrors : Mirrors live docs staged)
    (stages : stageDoc live staged doc = some staged')
    : Mirrors live (docs ++ [doc]) staged' := by
  obtain ⟨nodes, made, rfl⟩ := Option.map_eq_some_iff.mp stages
  have adds := makeDirs_adds mirrors.distinct made
  have above := mirrors.addsDirs adds
  split
  · exact above
  · exact above
  · rename_i data read other
    have noDir : (doc.path, Node.directory) ∉ nodes := fun mem =>
      other ((lookup_eq_some adds.distinct).mpr mem)
    have before {rel : Str} {node : Node} (isNode : (rel, node) ∈ nodes) (isDir : node = .directory)
        : rel ≠ doc.path := by
      rintro rfl
      exact noDir (isDir ▸ isNode)
    refine ⟨nodup_put adds.distinct, nodup_put mirrors.keys, ?_, ?_, ?_, ?_, ?_⟩
    · rintro ⟨rel, node⟩ mem
      rcases mem_put.mp mem with ⟨-, old⟩ | ⟨-, rfl⟩
      · exact above.plain _ old
      · exact .inr ⟨data, rfl⟩
    · intro rel found mem
      rcases mem_put.mp mem with ⟨apart, old⟩ | ⟨rfl, same⟩
      · obtain ⟨source, isDoc, path, isRead, listed⟩ := above.copied rel found old
        exact ⟨source, isDoc, path, isRead, mem_put.mpr (.inl ⟨apart, listed⟩)⟩
      · cases same
        exact ⟨doc, by simp, rfl, read, mem_put.mpr (.inr ⟨rfl, rfl⟩)⟩
    · rintro ⟨name, sha⟩ mem
      rcases mem_put.mp mem with ⟨apart, old⟩ | ⟨rfl, -⟩
      · obtain ⟨isDoc, found, inside⟩ := above.kept _ old
        exact ⟨isDoc, found, mem_put.mpr (.inl ⟨apart, inside⟩)⟩
      · exact ⟨⟨doc, by simp, rfl⟩, data, mem_put.mpr (.inr ⟨rfl, rfl⟩)⟩
    · rintro ⟨name, sha⟩ mem dir isAbove
      have inside : (dir, .directory) ∈ nodes := by
        rcases mem_put.mp mem with ⟨-, old⟩ | ⟨rfl, -⟩
        · exact above.made _ old dir isAbove
        · exact (adds.dirs dir).mpr (.inr isAbove)
      exact mem_put.mpr (.inl ⟨before inside rfl, inside⟩)
    · intro rel mem
      rcases mem_put.mp mem with ⟨-, old⟩ | ⟨-, isFile⟩
      · exact above.above rel old
      · cases isFile

/-- All documents are staged one after the other, by induction on them. -/
theorem Mirrors.stageDocs (stages : docs.foldlM (Curate.stageDoc live) ⟨[], []⟩ = some staged)
    : Mirrors live docs staged := by
  have onward (rest done : List DocRecord) {first last : Staged} (mirrors : Mirrors live done first)
      (stages : rest.foldlM (Curate.stageDoc live) first = some last)
      : Mirrors live (done ++ rest) last := by
    induction rest generalizing done first with
    | nil =>
        cases stages
        rwa [List.append_nil]
    | cons doc rest ih =>
        obtain ⟨next, here, others⟩ := Option.bind_eq_some_iff.mp stages
        have shape : done ++ doc :: rest = (done ++ [doc]) ++ rest := by simp
        rw [shape]
        exact ih (done ++ [doc]) (mirrors.stageDoc here) others
  exact onward docs [] (.start live) stages

-- The workspace

/-- What holds of Python's strings for the names of the furniture. -/
structure Furnished (strings : Strings) : Prop extends Composed strings where
  nfc_hidden : ∀ text, (strings.nfc text).head? = some '.' → text.head? = some '.'
  lower_manifest : strings.lower MANIFEST = "manifest.txt".toList

/-- No document of a walk is taken for furniture. -/
theorem path_kept (furnished : Furnished strings) {found : Found} {raw : Bytes}
    (walked : Walked strings tables found raw doc)
    : isRuntimeArtifact doc.path = false := by
  have names : doc.path.splitOn '/' = (found.dirs ++ [found.name]).map strings.nfc := by
    rw [walked.path, splitOn_nfc furnished.toComposed]
  have shown : ∀ name ∈ found.dirs ++ [found.name], name.head? ≠ some '.' := by
    intro name mem hidden
    obtain ⟨rest, rfl⟩ := List.head?_eq_some_iff.mp hidden
    rcases List.mem_append.mp mem with isDir | isName
    · simpa [entersDir] using walked.entered _ isDir
    · have shown := walked.shown
      rw [← List.mem_singleton.mp isName] at shown
      simp at shown
  obtain ⟨first, others, parts⟩
      : ∃ first others, found.dirs ++ [found.name] = first :: others :=
    List.exists_cons_of_ne_nil (List.append_ne_nil_of_right_ne_nil _ (by simp))
  have visible : (strings.nfc first).head? ≠ some '.' := fun hidden =>
    shown first (parts ▸ List.mem_cons_self) (furnished.nfc_hidden first hidden)
  have notFurniture (name : Str) (clean : '/' ∉ name) (same : doc.path = name)
      : strings.nfc first = name ∧ others = [] := by
    rw [same, List.splitOn_eq_singleton clean, parts, List.map_cons, List.cons.injEq] at names
    exact ⟨names.1.symm, List.map_eq_nil_iff.mp names.2.symm⟩
  have notManifest : doc.path ≠ MANIFEST := by
    intro same
    obtain ⟨first_, rfl⟩ := notFurniture MANIFEST (by decide) same
    have dirs : found.dirs = [] ∧ found.name = first := by
      cases none_ : found.dirs with
      | nil =>
          rw [none_] at parts
          exact ⟨rfl, List.singleton_inj.mp parts⟩
      | cons dir dirs =>
          have length := congrArg List.length parts
          rw [none_] at length
          simp at length
    have markdown := furnished.nfc_markdown _ walked.markdown
    rw [dirs.2, first_, furnished.lower_manifest] at markdown
    cases markdown
  have notJournal : doc.path ≠ JOURNAL := by
    intro same
    rw [(notFurniture JOURNAL (by decide) same).1] at visible
    exact visible rfl
  have notClaude : (doc.path.splitOn '/').headD [] ≠ ".claude".toList := by
    intro same
    rw [names, parts, List.map_cons, List.headD_cons] at same
    rw [same] at visible
    exact visible rfl
  rw [isRuntimeArtifact, decide_eq_false notClaude, Bool.or_false]
  simp [notManifest, notJournal]

/-- Only the documents and what leads to them are in the workspace, under the digests of what it
holds.
-/
structure StagedBase (sha256 : Bytes → Str) (staged : Staged) : Prop where
  distinct : (staged.nodes.map Prod.fst).Nodup
  plain : ∀ entry ∈ staged.nodes, entry.2 = .directory ∨ ∃ data, entry.2 = .file data
  files
    : ∀ rel data,
        isRuntimeArtifact rel = false
        → (rel, .file data) ∈ staged.nodes
        → staged.manifest.lookup rel = some (sha256 data)
  listed
    : ∀ entry ∈ staged.manifest,
        isRuntimeArtifact entry.1 = false ∧ ∃ data, (entry.1, .file data) ∈ staged.nodes
  made : ∀ entry ∈ staged.manifest, ∀ dir ∈ ancestors entry.1, (dir, .directory) ∈ staged.nodes

/-- What is read of a document to be copied still is what the walk has read. -/
def Unchanged (tables : Tables) (live : Live) (docs : List DocRecord) : Prop :=
  ∀ doc ∈ docs, ∀ data, live.read doc.path = .ok data → doc.contentSha = tables.sha256 data

/-- Every directory above a document has itself a document that was staged. -/
def Covered (docs : List DocRecord) (staged : Staged) : Prop :=
  ∀ doc ∈ docs,
    ∀ dir ∈ ancestors doc.path, ∃ entry ∈ staged.manifest, '/' ∈ entry.1 ∧ parent entry.1 = dir

/-- What is staged is a base for the classification. -/
theorem stageIn_base (furnished : Furnished strings) {files : List Found}
    (unchanged : Unchanged tables live (walkCorpus strings tables files).docs)
    (stages : stageIn strings live (walkCorpus strings tables files) = some staged)
    : StagedBase tables.sha256 staged
      ∧ ∀ rel,
          (rel, .directory) ∈ staged.nodes
          → ∃ doc ∈ (walkCorpus strings tables files).docs, rel ∈ ancestors doc.path := by
  have sound : Sound strings tables (walkCorpus strings tables files) := walkCorpus_sound ..
  obtain ⟨copied, staged_, writes⟩ := Option.bind_eq_some_iff.mp stages
  have mirrors := Mirrors.stageDocs staged_
  split at writes
  · cases writes
  · rename_i free
    obtain rfl := Option.some.inj writes
    have noDir : (MANIFEST, Node.directory) ∉ copied.nodes := fun mem =>
      free ((lookup_eq_some mirrors.distinct).mpr mem)
    have kept (entry : Str × Str) (mem : entry ∈ copied.manifest)
        : isRuntimeArtifact entry.1 = false := by
      obtain ⟨⟨doc, isDoc, path⟩, -⟩ := mirrors.kept entry mem
      obtain ⟨found, raw, walked⟩ := sound.walked doc isDoc
      exact path ▸ path_kept furnished walked
    have other {rel : Str} (kept : isRuntimeArtifact rel = false) : rel ≠ MANIFEST := by
      rintro rfl
      exact absurd kept (by decide)
    refine ⟨⟨nodup_put mirrors.distinct, ?_, ?_, ?_, ?_⟩, ?_⟩
    · rintro ⟨rel, node⟩ mem
      rcases mem_put.mp mem with ⟨-, old⟩ | ⟨-, rfl⟩
      · exact mirrors.plain _ old
      · exact .inr ⟨_, rfl⟩
    · intro rel data own mem
      rcases mem_put.mp mem with ⟨-, old⟩ | ⟨same, -⟩
      · obtain ⟨doc, isDoc, rfl, isRead, listed⟩ := mirrors.copied rel data old
        rw [← unchanged doc isDoc data isRead]
        exact (lookup_eq_some mirrors.keys).mpr listed
      · exact absurd same (other own)
    · intro entry mem
      obtain ⟨-, data, inside⟩ := mirrors.kept entry mem
      exact ⟨kept entry mem, data, mem_put.mpr (.inl ⟨other (kept entry mem), inside⟩)⟩
    · intro entry mem dir isAbove
      have inside := mirrors.made entry mem dir isAbove
      refine mem_put.mpr (.inl ⟨?_, inside⟩)
      rintro rfl
      exact noDir inside
    · intro rel mem
      rcases mem_put.mp mem with ⟨-, old⟩ | ⟨-, isFile⟩
      · exact mirrors.above rel old
      · cases isFile

end Curate
