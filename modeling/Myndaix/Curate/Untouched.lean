import Myndaix.Corpus.Validation
import Myndaix.Curate.StageIn

/-! What the classification says of a staged workspace: nothing as long as nobody has touched it,
and something about every path that is not as it was staged.
-/

namespace Curate

open Corpus
open Text

variable {strings : Strings} {sha256 : Bytes → Str} {staging : Staging} {staged : Staged}
  {manifest : Manifest Str} {op : Op} {rel name violation : Str} {data : Bytes} {bases : List Str}

-- Violations name their path

/-- The text of a violation begins with the path, or shows it. -/
def Names (strings : Strings) (rel violation : Str) : Prop :=
  rel ++ ": ".toList <+: violation ∨ strings.repr rel <:+: violation

/-- A violation begins with the name that it is about. -/
theorem prefix_named {text : Str} (begins : ": ".toList <+: text) (rest : Str)
    : name ++ ": ".toList <+: name ++ text ++ rest :=
  ((List.prefix_append_right_inj name).mpr begins).trans (List.prefix_append _ _)

/-- That of a ghost link does. -/
theorem ghostLink_names (name target : Str) : name ++ ": ".toList <+: ghostLink name target := by
  rw [ghostLink, List.append_assoc]
  exact prefix_named (by decide) _

/-- So does each violation of the content. -/
theorem contentViolations_name (mem : violation ∈ contentViolations strings name data bases)
    : name ++ ": ".toList <+: violation := by
  unfold contentViolations at mem
  split at mem
  · rw [List.mem_singleton.mp mem, List.append_assoc]
    exact prefix_named (by decide) _
  · split at mem
    · rw [List.mem_singleton.mp mem]
      exact (List.prefix_append_right_inj name).mpr (by decide)
    · split at mem
      · rw [List.mem_singleton.mp mem]
        exact (List.prefix_append_right_inj name).mpr (by decide)
      · rcases List.mem_append.mp mem with mem | ghost
        · rcases List.mem_append.mp mem with secret | fence
          · obtain ⟨secret, -, rfl⟩ := List.mem_map.mp secret
            rw [List.append_assoc]
            exact prefix_named (by decide) _
          · split at fence
            · rw [List.mem_singleton.mp fence]
              exact (List.prefix_append_right_inj name).mpr (by decide)
            · cases fence
        · obtain ⟨target, -, rfl⟩ := List.mem_map.mp ghost
          exact ghostLink_names name target

/-- And each of the index. -/
theorem indexViolations_name {text : Str} {files : List Str}
    (mem : violation ∈ indexViolations strings text files)
    : INDEX ++ ": ".toList <+: violation := by
  unfold indexViolations at mem
  split at mem
  · rw [List.mem_singleton.mp mem]
    decide
  · rcases List.mem_append.mp mem with missing | ghost
    · obtain ⟨file, -, rfl⟩ := List.mem_map.mp missing
      have begins : INDEX ++ ": ".toList <+: "index.md: missing entry for ".toList := by decide
      exact begins.trans (List.prefix_append _ _)
    · obtain ⟨target, -, rfl⟩ := List.mem_map.mp ghost
      exact ghostLink_names INDEX target

/-- And each of a new file. -/
theorem newViolations_name {final : List Str}
    (mem : violation ∈ newViolations strings bases final rel data)
    : rel ++ ": ".toList <+: violation := by
  rcases List.mem_append.mp mem with content | index
  · exact contentViolations_name content
  · split at index
    · rename_i same
      rw [same]
      exact indexViolations_name index
    · cases index

variable {node : Node}

/-- A violation found in a file shows its path. -/
theorem examine_names {text : Str}
    (found : examine strings sha256 manifest rel node = .violation text)
    : strings.repr rel <:+: text := by
  have shown (lead rest : Str) : strings.repr rel <:+: lead ++ strings.repr rel ++ rest :=
    (List.suffix_append _ _).isInfix.trans (List.prefix_append _ _).isInfix
  unfold examine at found
  split at found
  · split at found
    · split at found
      · cases found
      · split at found
        · cases found
        · cases found
          exact shown _ _
    · split at found
      · cases found
        exact shown _ _
      · split at found
        · cases found
          rw [List.append_assoc, List.append_assoc]
          exact shown _ _
        · cases found
  · cases found
    exact (List.prefix_append _ _).isInfix

-- Untouched

/-- A workspace that was left as it is, furniture apart, has nothing to report. -/
theorem classifyChanges_untouched (base : StagedBase sha256 staged)
    (covered
      : ∀ rel,
          (rel, .directory) ∈ staged.nodes
          → ∃ entry ∈ staged.manifest, '/' ∈ entry.1 ∧ parent entry.1 = rel)
    (same
      : ∀ entry,
          isRuntimeArtifact entry.1 = false → (entry ∈ staging.nodes ↔ entry ∈ staged.nodes))
    : classifyChanges strings sha256 staging staged.manifest op = ⟨[], false, []⟩ := by
  have untouched : ∀ entry ∈ findings strings sha256 staging staged.manifest,
      entry.2 = .untouched := by
    intro entry mem
    obtain ⟨⟨rel, node⟩, inside, rfl⟩ := List.mem_map.mp mem
    obtain ⟨listed, own⟩ := List.mem_filter.mp inside
    simp only [Bool.and_eq_true, Bool.not_eq_true'] at own
    have left := (same _ own.1).mp listed
    rcases base.plain _ left with isDir | ⟨data, isFile⟩
    · cases isDir
      cases own.2
    · cases isFile
      have digest := base.files rel data own.1 left
      simp only [examine, digest, if_true]
  have noneFresh : newNames strings sha256 staging staged.manifest = [] := by
    refine List.filterMap_eq_nil_iff.mpr fun entry mem => ?_
    rw [untouched entry mem]
  have notIndex
      : (findings strings sha256 staging staged.manifest).any (fun entry => entry.2 = .index)
        = false := by
    refine List.any_eq_false.mpr fun entry mem => ?_
    rw [untouched entry mem]
    decide
  have noneCreated : createdDirectories strings staging staged.manifest = [] := by
    refine List.map_eq_nil_iff.mpr (List.filter_eq_nil_iff.mpr fun entry mem => ?_)
    intro created
    simp only [Bool.and_eq_true, Bool.not_eq_true', List.contains_eq_mem, decide_eq_false_iff_not]
      at created
    refine created.2 ?_
    have left := (same _ created.1.1).mp mem
    rcases base.plain entry left with isDir | ⟨data, isFile⟩
    · obtain ⟨file, listed, nested, isParent⟩ := covered entry.1 (isDir ▸ left)
      rw [← isParent]
      refine List.mem_map_of_mem (List.mem_filter.mpr ⟨List.mem_map_of_mem listed, ?_⟩)
      simpa using nested
    · rw [isFile] at created
      cases created.1.2
  have noneDeleted : deletedFiles strings staging staged.manifest = [] := by
    refine List.map_eq_nil_iff.mpr (List.filter_eq_nil_iff.mpr fun name mem => ?_)
    obtain ⟨entry, listed, rfl⟩ := List.mem_map.mp mem
    obtain ⟨own, data, inside⟩ := base.listed entry listed
    have isPresent : (entry.1, Node.file data) ∈ present staging :=
      List.mem_filter.mpr ⟨(same _ own).mpr inside, by simp [own, Node.isDir]⟩
    have named : entry.1 ∈ (present staging).map Prod.fst := List.mem_map.mpr ⟨_, isPresent, rfl⟩
    simpa using named
  have sorted : sortedByName [] = [] := List.mergeSort_nil
  simp only [classifyChanges, noneFresh, notIndex, noneCreated, noneDeleted, sorted]
  simp only [List.map_nil, List.filter_nil, List.flatten_nil, List.append_nil, List.nil_append,
    List.isEmpty_nil, Bool.not_true, Bool.or_self, Bool.and_false, Bool.false_eq_true, if_false,
    Changes.mk.injEq, true_and]
  refine List.filterMap_eq_nil_iff.mpr fun entry mem => ?_
  rw [untouched entry mem]

-- Touched

/-- The path is among the new files, is the index and modified, or has a violation. -/
def Reported (strings : Strings) (changes : Changes) (rel : Str) : Prop :=
  rel ∈ changes.newFiles ∨ (rel = INDEX ∧ changes.indexModified = true)
  ∨ ∃ violation ∈ changes.violations, Names strings rel violation

/-- Created directories are reported. -/
theorem created_mem (created : violation ∈ createdDirectories strings staging manifest)
    : violation ∈ (classifyChanges strings sha256 staging manifest op).violations := by
  simp only [classifyChanges, List.mem_append]
  exact .inl (.inl (.inl (.inl (.inl created))))

/-- Deleted files are. -/
theorem deleted_mem (deleted : violation ∈ deletedFiles strings staging manifest)
    : violation ∈ (classifyChanges strings sha256 staging manifest op).violations := by
  simp only [classifyChanges, List.mem_append]
  exact .inl (.inl (.inl (.inl (.inr deleted))))

/-- What is found at a path is. -/
theorem found_mem (found : (rel, .violation violation) ∈ findings strings sha256 staging manifest)
    : violation ∈ (classifyChanges strings sha256 staging manifest op).violations := by
  simp only [classifyChanges, List.mem_append]
  exact .inl (.inl (.inl (.inr (List.mem_filterMap.mpr ⟨_, found, rfl⟩))))

/-- A new file is accepted, or there are violations of it. -/
theorem reported_new (isNew : (rel, data) ∈ newNames strings sha256 staging manifest)
    : Reported strings (classifyChanges strings sha256 staging manifest op) rel := by
  let final := finalMd strings manifest (newNames strings sha256 staging manifest)
  let judged :=
    (sortedByName (newNames strings sha256 staging manifest)).map (fun file =>
      (file.1, newViolations strings (mdBases strings final) final file.1 file.2))
  have isJudged : (rel, newViolations strings (mdBases strings final) final rel data) ∈ judged :=
    List.mem_map.mpr ⟨(rel, data), List.mem_mergeSort.mpr isNew, rfl⟩
  cases violations : newViolations strings (mdBases strings final) final rel data with
  | nil =>
      rw [violations] at isJudged
      exact .inl (List.mem_map.mpr ⟨_, List.mem_filter.mpr ⟨isJudged, rfl⟩, rfl⟩)
  | cons violation others =>
      have inside : violation ∈ newViolations strings (mdBases strings final) final rel data := by
        rw [violations]
        exact List.mem_cons_self
      refine .inr (.inr ⟨violation, ?_, .inl (newViolations_name inside)⟩)
      have all : violation ∈ (judged.map Prod.snd).flatten :=
        List.mem_flatten.mpr ⟨_, List.mem_map_of_mem isJudged, inside⟩
      simp only [classifyChanges, List.mem_append]
      exact .inl (.inl (.inr all))

/-- A directory that no staged file lies in is reported. -/
theorem reported_created (own : isRuntimeArtifact rel = false)
    (listed : (rel, node) ∈ staging.nodes) (isDir : node.isDir = true)
    (other : ∀ entry ∈ manifest, '/' ∈ entry.1 → parent entry.1 ≠ rel)
    : Reported strings (classifyChanges strings sha256 staging manifest op) rel := by
  have created
      : "created directory ".toList ++ strings.repr rel ++ " (flat corpus only)".toList
        ∈ createdDirectories strings staging manifest := by
    refine List.mem_map.mpr ⟨(rel, node), List.mem_filter.mpr ⟨listed, ?_⟩, rfl⟩
    simp only [own, isDir, Bool.not_false, Bool.true_and, Bool.not_eq_true',
      List.contains_eq_mem, decide_eq_false_iff_not]
    intro inside
    obtain ⟨name, isName, isParent⟩ := List.mem_map.mp inside
    obtain ⟨isListed, nested⟩ := List.mem_filter.mp isName
    obtain ⟨entry, mem, rfl⟩ := List.mem_map.mp isListed
    exact other entry mem (by simpa using nested) isParent
  refine .inr (.inr ⟨_, created_mem created, .inr ?_⟩)
  exact (List.suffix_append _ _).isInfix.trans (List.prefix_append _ _).isInfix

/-- A staged file that is gone is. -/
theorem reported_deleted {digest : Str} (listed : (rel, digest) ∈ manifest)
    (gone : ∀ node, (rel, node) ∈ staging.nodes → node.isDir = true)
    : Reported strings (classifyChanges strings sha256 staging manifest op) rel := by
  have deleted
      : "deleted staged file ".toList ++ strings.repr rel
        ∈ deletedFiles strings staging manifest := by
    refine List.mem_map.mpr ⟨rel, List.mem_filter.mpr ⟨List.mem_map_of_mem listed, ?_⟩, rfl⟩
    simp only [Bool.not_eq_true', List.contains_eq_mem, decide_eq_false_iff_not]
    intro inside
    obtain ⟨⟨_, node⟩, isPresent, same⟩ := List.mem_map.mp inside
    cases same
    obtain ⟨there, kept⟩ := List.mem_filter.mp isPresent
    simp [gone node there] at kept
  exact .inr (.inr ⟨_, deleted_mem deleted, .inr (List.suffix_append _ _).isInfix⟩)

/-- Untouched files have the digest of the manifest. -/
theorem examine_untouched (untouched : examine strings sha256 manifest rel node = .untouched)
    : ∃ data, node = .file data ∧ manifest.lookup rel = some (sha256 data) := by
  unfold examine at untouched
  split at untouched
  · rename_i data
    split at untouched
    · rename_i digest listed
      split at untouched
      · rename_i same
        exact ⟨data, rfl, same ▸ listed⟩
      · split at untouched
        · cases untouched
        · cases untouched
    · split at untouched
      · cases untouched
      · split at untouched
        · cases untouched
        · cases untouched
  · cases untouched

/-- A listed path is reported unless it is found untouched. -/
theorem reported_found (own : isRuntimeArtifact rel = false) (listed : (rel, node) ∈ staging.nodes)
    (noDir : node.isDir = false) (touched : examine strings sha256 manifest rel node ≠ .untouched)
    : Reported strings (classifyChanges strings sha256 staging manifest op) rel := by
  have found
      : (rel, examine strings sha256 manifest rel node)
        ∈ findings strings sha256 staging manifest :=
    List.mem_map.mpr ⟨(rel, node), List.mem_filter.mpr ⟨listed, by simp [own, noDir]⟩, rfl⟩
  cases examined : examine strings sha256 manifest rel node with
  | untouched => exact absurd examined touched
  | index =>
      obtain ⟨isIndex, -⟩ := examine_index examined
      rw [examined] at found
      exact .inr (.inl ⟨isIndex, List.any_eq_true.mpr ⟨_, found, rfl⟩⟩)
  | violation text =>
      rw [examined] at found
      exact .inr (.inr ⟨text, found_mem found, .inr (examine_names examined)⟩)
  | fresh data =>
      rw [examined] at found
      exact reported_new (List.mem_filterMap.mpr ⟨_, found, rfl⟩)

/-- The directory of a nested path is above it. -/
theorem parent_mem_ancestors (nested : '/' ∈ rel) : parent rel ∈ ancestors rel := by
  have some : (rel.splitOn '/').dropLast ≠ [] := by
    intro none_
    have length := congrArg List.length none_
    have parts := length_splitOn '/' rel
    have slashes := List.count_pos_iff.mpr nested
    rw [List.length_dropLast, List.length_nil] at length
    omega
  refine List.mem_map.mpr
    ⟨_, List.mem_filter.mpr ⟨(List.mem_inits _ _).mpr List.prefix_rfl, ?_⟩, rfl⟩
  simpa using some

/-- No file of the workspace has the digest of what was staged there, but for that. -/
def Distinguishes (sha256 : Bytes → Str) (staged : Staged) (staging : Staging) : Prop :=
  ∀ rel base data,
    (rel, .file base) ∈ staged.nodes
    → (rel, .file data) ∈ staging.nodes
    → sha256 data = sha256 base
    → data = base

/-- A path that does not hold what was staged there is reported, unless a directory was staged that
is gone or a link to another one.
-/
theorem classifyChanges_reports (base : StagedBase sha256 staged)
    (distinguishes : Distinguishes sha256 staged staging) (own : isRuntimeArtifact rel = false)
    (differs : staging.nodes.lookup rel ≠ staged.nodes.lookup rel)
    (kept
      : staged.nodes.lookup rel = some .directory
        → staging.nodes.lookup rel ≠ none ∧ staging.nodes.lookup rel ≠ some (.link true))
    : Reported strings (classifyChanges strings sha256 staging staged.manifest op) rel := by
  cases after : staging.nodes.lookup rel with
  | none =>
      obtain ⟨node, before⟩ : ∃ node, staged.nodes.lookup rel = some node :=
        Option.ne_none_iff_exists'.mp fun none_ => differs (after.trans none_.symm)
      rcases base.plain _ ((lookup_eq_some base.distinct).mp before) with isDir | ⟨data, isFile⟩
      · cases isDir
        exact absurd after (kept before).1
      · cases isFile
        have digest := base.files rel data own ((lookup_eq_some base.distinct).mp before)
        refine reported_deleted (mem_of_lookup digest) fun node listed => ?_
        exact absurd listed (not_mem_of_lookup after)
  | some node =>
      have listed := mem_of_lookup after
      cases isDir : node.isDir with
      | true =>
          refine reported_created own listed isDir fun entry mem nested isParent => ?_
          have made := base.made entry mem rel (isParent ▸ parent_mem_ancestors nested)
          have before := (lookup_eq_some base.distinct).mpr made
          cases node with
          | directory => exact differs (after.trans before.symm)
          | link toDirectory =>
              obtain rfl : toDirectory = true := isDir
              exact (kept before).2 after
          | file data => cases isDir
          | special => cases isDir
      | false =>
          refine reported_found own listed isDir fun untouched => ?_
          obtain ⟨data, rfl, digest⟩ := examine_untouched untouched
          obtain ⟨-, staged_, inside⟩ := base.listed _ (mem_of_lookup digest)
          have same : sha256 data = sha256 staged_ :=
            Option.some.inj (digest.symm.trans (base.files rel staged_ own inside))
          obtain rfl := distinguishes rel staged_ data inside listed same
          exact differs (after.trans ((lookup_eq_some base.distinct).mpr inside).symm)

-- Staged and classified

/-- A listing goes through directories alone. -/
def Rooted (staging : Staging) : Prop :=
  ∀ entry ∈ staging.nodes, ∀ dir ∈ ancestors entry.1, (dir, .directory) ∈ staging.nodes

/-- A staged directory is gone, or a link to another one. -/
def Vanished (staged : Staged) (staging : Staging) (rel : Str) : Prop :=
  staged.nodes.lookup rel = some .directory
  ∧ (staging.nodes.lookup rel = none ∨ staging.nodes.lookup rel = some (.link true))

/-- Nothing is reported of a workspace as it was staged; every path outside of the furniture that
does not hold what was staged there is, a directory that has vanished by the documents under it.
-/
theorem stageIn_classified {tables : Tables} {live : Live} {files : List Found}
    (furnished : Furnished strings)
    (unchanged : Unchanged tables live (walkCorpus strings tables files).docs)
    (stages : stageIn strings live (walkCorpus strings tables files) = some staged)
    : (Covered (walkCorpus strings tables files).docs staged
        → ∀ staging op,
            (∀ entry,
              isRuntimeArtifact entry.1 = false → (entry ∈ staging.nodes ↔ entry ∈ staged.nodes))
            → classifyChanges strings tables.sha256 staging staged.manifest op = ⟨[], false, []⟩)
      ∧ ∀ staging op,
          Rooted staging
          → Distinguishes tables.sha256 staged staging
          → ∀ rel,
              isRuntimeArtifact rel = false
              → staging.nodes.lookup rel ≠ staged.nodes.lookup rel
              → let changes := classifyChanges strings tables.sha256 staging staged.manifest op
                (¬Vanished staged staging rel → Reported strings changes rel)
                ∧ (Vanished staged staging rel
                    → ∀ entry ∈ staged.manifest,
                        rel ∈ ancestors entry.1 → Reported strings changes entry.1) := by
  obtain ⟨base, above⟩ := stageIn_base furnished unchanged stages
  constructor
  · intro covered staging op same
    refine classifyChanges_untouched base (fun rel mem => ?_) same
    obtain ⟨doc, isDoc, isAbove⟩ := above rel mem
    exact covered doc isDoc rel isAbove
  · intro staging op rooted distinguishes rel own differs
    constructor
    · intro there
      refine classifyChanges_reports base distinguishes own differs fun isDir => ?_
      exact ⟨fun gone => there ⟨isDir, .inl gone⟩, fun link => there ⟨isDir, .inr link⟩⟩
    · rintro ⟨isDir, gone⟩ entry mem isAbove
      refine reported_deleted mem fun node listed => ?_
      have dir := (lookup_eq_some staging.distinct).mpr (rooted _ listed rel isAbove)
      rcases gone with none_ | link
      · rw [dir] at none_
        cases none_
      · rw [dir] at link
        cases link

/-- The digests of the texts `x` and `y`. -/
def sampleTables : Tables where
  isDecimal := Char.isDigit
  sha256 data :=
    if data = utf8 ['x'] then
      "2d711642b726b04401627ca9fbac32f5c8530fb1903cc4db02258717921a4881".toList
    else "a1fce4363854ff888cff4b8e7875d600c2682390412a8cf79b37d0b11148b0fa".toList

def sampleLive : Live where
  read _ := .ok (utf8 ['x'])
  size _ := some 1

/-- A corpus whose only document lies in a directory. -/
def flatWalk : WalkResult :=
  walkCorpus asciiStrings sampleTables
    [ {
        dirs := ["d".toList],
        name := "b.md".toList,
        entry := .file 1 true (.ok (utf8 ['x'])),
        named := by decide
      } ]

/-- One whose only document lies two directories down. -/
def nestedWalk : WalkResult :=
  walkCorpus asciiStrings sampleTables
    [ {
        dirs := ["c".toList, "d".toList],
        name := "b.md".toList,
        entry := .file 1 true (.ok (utf8 ['x'])),
        named := by decide
      } ]

/-- A workspace whose manifest text reads so. -/
def flatStaged (text : Bytes) : Staged where
  nodes :=
    [ ("d".toList, .directory), ("d/b.md".toList, .file (utf8 ['x'])), (MANIFEST, .file text) ]
  manifest := [("d/b.md".toList, sampleTables.sha256 (utf8 ['x']))]

theorem asciiStrings_furnished : Furnished asciiStrings where
  toComposed := asciiStrings_canonical.toComposed
  nfc_hidden _ hidden := hidden
  lower_manifest := by decide

def flatManifest : Bytes :=
  utf8 (manifestText asciiStrings sampleLive flatWalk.artifacts)

theorem flatWalk_stages
    : stageIn asciiStrings sampleLive flatWalk = some (flatStaged flatManifest) := by
  have copied
      : flatWalk.docs.foldlM (stageDoc sampleLive) ⟨[], []⟩
        = some
            ⟨[("d".toList, .directory), ("d/b.md".toList, .file (utf8 ['x']))],
              [("d/b.md".toList, sampleTables.sha256 (utf8 ['x']))]⟩ := by
    decide +kernel
  rw [stageIn, copied]
  rfl

/-- The workspace with this text in its manifest and this one in its document. -/
def flatStaging (text data : Bytes) : Staging where
  nodes := [("d".toList, .directory), ("d/b.md".toList, .file data), (MANIFEST, .file text)]
  distinct := by simp only [List.map_cons, List.map_nil]; decide

theorem flatWalk_unchanged : Unchanged sampleTables sampleLive flatWalk.docs := by
  have all : ∀ doc ∈ flatWalk.docs, doc.contentSha = sampleTables.sha256 (utf8 ['x']) := by
    decide +kernel
  intro doc mem data read
  cases read
  exact all doc mem

theorem flatWalk_covered : Covered flatWalk.docs (flatStaged flatManifest) := by
  have all
      : ∀ doc ∈ flatWalk.docs,
          ∀ dir ∈ ancestors doc.path,
            ∃ entry ∈ (flatStaged []).manifest, '/' ∈ entry.1 ∧ parent entry.1 = dir := by
    decide +kernel
  exact all

theorem stageIn_classified_sample
    : classifyChanges asciiStrings sampleTables.sha256 (flatStaging flatManifest (utf8 ['x']))
          (flatStaged flatManifest).manifest .file
        = ⟨[], false, []⟩
      ∧ Reported asciiStrings
          (classifyChanges asciiStrings sampleTables.sha256 (flatStaging flatManifest (utf8 ['y']))
            (flatStaged flatManifest).manifest .file)
          "d/b.md".toList := by
  obtain ⟨untouched, touched⟩ :=
    stageIn_classified asciiStrings_furnished flatWalk_unchanged flatWalk_stages
  refine ⟨untouched flatWalk_covered _ _ fun _ _ => Iff.rfl, ?_⟩
  have other : MANIFEST ≠ "d/b.md".toList := by decide
  have distinguishes
      : Distinguishes sampleTables.sha256 (flatStaged flatManifest)
          (flatStaging flatManifest (utf8 ['y'])) := by
    intro rel base data inside inside' same
    simp only [flatStaged, flatStaging, List.mem_cons, Prod.mk.injEq, Node.file.injEq, reduceCtorEq,
      and_false, false_or, List.not_mem_nil, or_false] at inside inside'
    rcases inside with ⟨rfl, rfl⟩ | ⟨rfl, rfl⟩
    · rcases inside' with ⟨-, rfl⟩ | ⟨isManifest, -⟩
      · exact absurd same (by decide +kernel)
      · exact absurd isManifest.symm other
    · rcases inside' with ⟨isDoc, -⟩ | ⟨-, rfl⟩
      · exact absurd isDoc other
      · rfl
  have rooted : Rooted (flatStaging flatManifest (utf8 ['y'])) := by
    have above
        : ancestors "d".toList = [] ∧ ancestors "d/b.md".toList = ["d".toList]
          ∧ ancestors MANIFEST = [] := by
      decide +kernel
    intro entry mem dir isAbove
    simp only [flatStaging, List.mem_cons, List.not_mem_nil, or_false] at mem ⊢
    rcases mem with rfl | rfl | rfl
    · rw [above.1] at isAbove
      cases isAbove
    · rw [above.2.1] at isAbove
      exact .inl (Prod.ext (List.mem_singleton.mp isAbove) rfl)
    · rw [above.2.2] at isAbove
      cases isAbove
  have before
      : (flatStaged flatManifest).nodes.lookup "d/b.md".toList = some (.file (utf8 ['x'])) :=
    rfl
  have after
      : (flatStaging flatManifest (utf8 ['y'])).nodes.lookup "d/b.md".toList
        = some (.file (utf8 ['y'])) :=
    rfl
  refine (touched _ .file rooted distinguishes "d/b.md".toList (by decide) ?_).1 ?_
  · rw [before, after]
    decide
  · rintro ⟨isDir, -⟩
    rw [before] at isDir
    cases isDir

/-- A directory that holds nothing but directories is taken for one of the agent, and what the agent
writes over the manifest is not reported.
-/
theorem stageIn_misjudged
    : (∃ staged staging,
        stageIn asciiStrings sampleLive nestedWalk = some staged ∧ staging.nodes = staged.nodes
        ∧ "created directory 'c' (flat corpus only)".toList
          ∈ (classifyChanges asciiStrings sampleTables.sha256 staging staged.manifest
              .file).violations)
      ∧ ∃ staged staging,
          stageIn asciiStrings sampleLive flatWalk = some staged
          ∧ staging.nodes.lookup MANIFEST ≠ staged.nodes.lookup MANIFEST
          ∧ classifyChanges asciiStrings sampleTables.sha256 staging staged.manifest .file
            = ⟨[], false, []⟩ := by
  constructor
  · have copied
        : nestedWalk.docs.foldlM (stageDoc sampleLive) ⟨[], []⟩
          = some
              ⟨[("c".toList, .directory), ("c/d".toList, .directory),
                  ("c/d/b.md".toList, .file (utf8 ['x']))],
                [("c/d/b.md".toList, sampleTables.sha256 (utf8 ['x']))]⟩ := by
      decide +kernel
    have stages
        : stageIn asciiStrings sampleLive nestedWalk
          = some
              ⟨[("c".toList, .directory), ("c/d".toList, .directory),
                  ("c/d/b.md".toList, .file (utf8 ['x'])),
                  (MANIFEST,
                    .file (utf8 (manifestText asciiStrings sampleLive nestedWalk.artifacts)))],
                [("c/d/b.md".toList, sampleTables.sha256 (utf8 ['x']))]⟩ := by
      rw [stageIn, copied]
      rfl
    refine ⟨_, ⟨_, ?_⟩, stages, rfl, created_mem ?_⟩
    · simp only [List.map_cons, List.map_nil]
      decide
    · refine List.mem_map.mpr ⟨("c".toList, .directory), List.mem_filter.mpr ⟨by simp, ?_⟩, rfl⟩
      decide +kernel
  · obtain ⟨base, above⟩ :=
      stageIn_base asciiStrings_furnished flatWalk_unchanged flatWalk_stages
    refine ⟨_, flatStaging [] (utf8 ['x']), flatWalk_stages, fun same => ?_, ?_⟩
    · have before : (flatStaged flatManifest).nodes.lookup MANIFEST = some (.file flatManifest) :=
        rfl
      have after : (flatStaging [] (utf8 ['x'])).nodes.lookup MANIFEST = some (.file []) := rfl
      rw [before, after] at same
      have none_ : flatManifest = [] := by simpa using same.symm
      rw [flatManifest, manifestText, utf8_append] at none_
      exact absurd (List.append_eq_nil_iff.mp none_).2 (by decide)
    · refine classifyChanges_untouched base (fun rel mem => ?_) fun entry own => ?_
      · obtain ⟨doc, isDoc, isAbove⟩ := above rel mem
        exact flatWalk_covered doc isDoc rel isAbove
      · have other (text : Bytes) : entry ≠ (MANIFEST, Node.file text) := by
          rintro rfl
          have isFurniture : isRuntimeArtifact MANIFEST = true := by decide
          exact absurd own (by simp [isFurniture])
        simp only [flatStaging, flatStaged, List.mem_cons, List.not_mem_nil, or_false, other]

end Curate
