import Myndaix.Corpus.Documents

/-! The walk of a corpus: which files are taken, under which names, and what is kept of them. -/

namespace Corpus

open Curate (Str Strings baseName endsMd)
open Text

-- Files

/-- What a name in a directory stands for. A regular file has a number of links, lies inside the
corpus or not, and is read or not.
-/
inductive Entry where
  | unseen (error : Str)
  | irregular
  | file (links : Nat) (inside : Bool) (content : Except Str Bytes)

/-- A file as the walk comes to it: the names on the way from the root, and its own. -/
structure Found where
  dirs : List Str
  name : Str
  entry : Entry
  named : '/' ∉ name ∧ ∀ dir ∈ dirs, '/' ∉ dir

def Found.relative (found : Found) : Str :=
  ['/'].intercalate (found.dirs ++ [found.name])

def NOISE_DIRS : List Str :=
  ["__pycache__".toList, ".playwright-mcp".toList, ".claude".toList, ".git".toList,
    "node_modules".toList]

/-- `_is_noise_dir`. -/
def isNoiseDir (name : Str) : Bool :=
  NOISE_DIRS.contains name || ".venv".toList.isPrefixOf name

/-- The walk goes into such directories alone. -/
def entersDir (name : Str) : Bool :=
  !isNoiseDir name && !".".toList.isPrefixOf name

/-- `[\x00-\x1f\x7f]`. -/
def isControl (char : Char) : Bool :=
  char.toNat ≤ 0x1F || char.toNat = 0x7F

structure WalkResult where
  docs : List DocRecord
  warnings : List Str
  artifacts : List Str
deriving DecidableEq, Repr

section Walk

variable (strings : Strings) (tables : Tables)

def skipped (name : Str) (reason : Str) : Str :=
  "skipped ".toList ++ strings.repr name ++ ": ".toList ++ reason

/-- `_eligible_file`: the content of the file, or the warnings about it. -/
def eligibleFile (found : Found) : Except (List Str) (Except Str Bytes) :=
  if ".".toList.isPrefixOf found.name then .error []
  else if found.name.any isControl then
    .error [skipped strings found.name "control chars in filename".toList]
  else
    match found.entry with
    | .unseen error =>
        .error [skipped strings found.name ("lstat failed (".toList ++ error ++ ")".toList)]
    | .irregular => .error [skipped strings found.name "not a regular file".toList]
    | .file links inside content =>
        if links > 1 then
          .error
            [ skipped strings found.name
                ("hardlinked (st_nlink=".toList ++ links.repr.toList ++ ")".toList) ]
        else if !inside then .error [skipped strings found.name "escapes the corpus root".toList]
        else .ok content

/-- `date_disagreement`. -/
def dateDisagreement (relPath body : Str) : Option (Str × Str) :=
  match nameDate tables (baseName relPath), frontmatterDate tables (body.take 2000) with
  | some inName, some inBody => if inName ≠ inBody then some (inName, inBody) else none
  | _, _ => none

/-- One file of the walk. -/
def walkFile (result : WalkResult) (found : Found) : WalkResult :=
  match eligibleFile strings found with
  | .error warnings => { result with warnings := result.warnings ++ warnings }
  | .ok content =>
      let rel := strings.nfc found.relative
      match result.artifacts.find? (fun other => strings.lower other = strings.lower rel) with
      | some other =>
          {
            result with
            warnings :=
              result.warnings
                ++ [ "case-insensitive duplicate: ".toList ++ strings.repr rel ++ " vs ".toList
                      ++ strings.repr other ++ " — first wins".toList ]
          }
      | none =>
          let result := { result with artifacts := result.artifacts ++ [rel] }
          if !endsMd (strings.lower found.name) then result
          else
            match content with
            | .error error =>
                {
                  result with
                  warnings :=
                    result.warnings
                      ++ [skipped strings rel ("read failed (".toList ++ error ++ ")".toList)]
                }
            | .ok raw =>
                let doc := parseDoc tables rel raw
                let disagreement :=
                  match dateDisagreement tables rel doc.body with
                  | some (inName, inBody) =>
                      [ rel ++ ": filename date ".toList ++ inName
                          ++ " != frontmatter date ".toList ++ inBody ++ " — filename wins".toList ]
                  | none => []
                {
                  docs := result.docs ++ [doc],
                  warnings := result.warnings ++ disagreement,
                  artifacts := result.artifacts
                }

/-- `walk_corpus`: the files in the order in which the walk comes to them, those of directories that
it does not enter left out.
-/
def walkCorpus (files : List Found) : WalkResult :=
  (files.filter (fun found => found.dirs.all entersDir)).foldl
  (walkFile strings tables) ⟨[], [], []⟩

end Walk

-- What a walk finds

variable {strings : Strings} {tables : Tables} {found : Found}

/-- A document of a walk, with the file that it was made of. -/
structure Walked (strings : Strings) (tables : Tables) (found : Found) (raw : Bytes)
    (doc : DocRecord)
    : Prop where
  parsed : doc = parseDoc tables (strings.nfc found.relative) raw
  entered : ∀ dir ∈ found.dirs, entersDir dir = true
  shown : ".".toList.isPrefixOf found.name = false
  printable : ∀ char ∈ found.name, isControl char = false
  markdown : endsMd (strings.lower found.name) = true

theorem Walked.path {raw : Bytes} {doc : DocRecord} (walked : Walked strings tables found raw doc)
    : doc.path = strings.nfc found.relative := by
  rw [walked.parsed]
  rfl

/-- The paths of a walk differ even without their case, and its documents are among them. -/
structure Sound (strings : Strings) (tables : Tables) (result : WalkResult) : Prop where
  walked : ∀ doc ∈ result.docs, ∃ found raw, Walked strings tables found raw doc
  distinct : (result.artifacts.map strings.lower).Nodup
  listed : (result.docs.map DocRecord.path).Sublist result.artifacts

/-- An eligible file is not hidden, and its name is clean. -/
theorem eligibleFile_ok {content : Except Str Bytes}
    (eligible : eligibleFile strings found = .ok content)
    : ".".toList.isPrefixOf found.name = false ∧ ∀ char ∈ found.name, isControl char = false := by
  unfold eligibleFile at eligible
  split at eligible
  · cases eligible
  · rename_i shown
    split at eligible
    · cases eligible
    · rename_i printable
      rw [List.any_eq_true, not_exists] at printable
      exact ⟨Bool.eq_false_iff.mpr shown, fun char mem =>
        Bool.eq_false_iff.mpr fun control => printable char ⟨mem, control⟩⟩

/-- One file keeps a walk sound. -/
theorem Sound.walkFile {result : WalkResult} (sound : Sound strings tables result)
    (entered : ∀ dir ∈ found.dirs, entersDir dir = true)
    : Sound strings tables (walkFile strings tables result found) := by
  unfold Corpus.walkFile
  cases eligible : eligibleFile strings found with
  | error warnings => exact ⟨sound.walked, sound.distinct, sound.listed⟩
  | ok content =>
      obtain ⟨shown, printable⟩ := eligibleFile_ok eligible
      dsimp only
      cases twice
          : result.artifacts.find? (fun other =>
              strings.lower other = strings.lower (strings.nfc found.relative)) with
      | some other => exact ⟨sound.walked, sound.distinct, sound.listed⟩
      | none =>
          have fresh
              : ((result.artifacts ++ [strings.nfc found.relative]).map strings.lower).Nodup := by
            rw [List.map_append, List.map_singleton, List.nodup_append]
            refine ⟨sound.distinct, List.nodup_singleton _, fun lowered mem lowered' single => ?_⟩
            obtain ⟨other, inside, rfl⟩ := List.mem_map.mp mem
            rw [List.mem_singleton.mp single]
            simpa using List.find?_eq_none.mp twice other inside
          have kept : (result.docs.map DocRecord.path).Sublist
              (result.artifacts ++ [strings.nfc found.relative]) :=
            sound.listed.trans (List.sublist_append_left _ _)
          dsimp only
          split
          · exact ⟨sound.walked, fresh, kept⟩
          · rename_i markdown
            cases content with
            | error error => exact ⟨sound.walked, fresh, kept⟩
            | ok raw =>
                refine ⟨fun doc mem => ?_, fresh, ?_⟩
                · rcases List.mem_append.mp mem with old | new
                  · exact sound.walked doc old
                  · exact ⟨found, raw, List.mem_singleton.mp new, entered, shown, printable,
                      by simpa using markdown⟩
                · rw [List.map_append]
                  exact sound.listed.append (List.Sublist.refl _)

/-- Every walk is sound, by induction on the files. -/
theorem walkCorpus_sound (strings : Strings) (tables : Tables) (files : List Found)
    : Sound strings tables (walkCorpus strings tables files) := by
  have onward (files : List Found)
      (entered : ∀ found ∈ files, ∀ dir ∈ found.dirs, entersDir dir = true)
      {result : WalkResult} (sound : Sound strings tables result)
      : Sound strings tables (files.foldl (walkFile strings tables) result) := by
    induction files generalizing result with
    | nil => exact sound
    | cons found files ih =>
        obtain ⟨first, others⟩ := List.forall_mem_cons.mp entered
        exact ih others (sound.walkFile first)
  refine onward _ (fun found mem => ?_) ⟨List.forall_mem_nil _, List.nodup_nil, .slnil⟩
  exact List.all_eq_true.mp (List.mem_filter.mp mem).2

-- Composed paths

/-- What holds of `unicodedata.normalize("NFC", …)`: nothing is composed over the end of a line, a
slash or a space, no line feed or slash comes out of something else, and Markdown files stay such.
-/
structure Composed (strings : Strings) : Prop where
  nfc_break
    : ∀ front back,
        ∀ char ∈ ['\n', '/', ' '],
          strings.nfc (front ++ char :: back) = strings.nfc front ++ char :: strings.nfc back
  nfc_clean : ∀ text, ∀ char ∈ ['\n', '/'], char ∈ strings.nfc text → char ∈ text
  nfc_markdown
    : ∀ text, endsMd (strings.lower text) = true → endsMd (strings.lower (strings.nfc text)) = true

/-- A path is composed name by name. -/
theorem nfc_intercalate (composed : Composed strings) {parts : List Str} (some : parts ≠ [])
    : strings.nfc (['/'].intercalate parts) = ['/'].intercalate (parts.map strings.nfc) := by
  induction parts with
  | nil => exact absurd rfl some
  | cons part parts ih =>
      by_cases alone : parts = []
      · rw [alone, List.intercalate_singleton, List.map_singleton, List.intercalate_singleton]
      · have others : parts.map strings.nfc ≠ [] :=
          fun none_ => alone (List.map_eq_nil_iff.mp none_)
        rw [List.intercalate_cons_of_ne_nil alone, List.append_assoc, List.singleton_append,
          composed.nfc_break _ _ '/' (by decide), ih alone, List.map_cons,
          List.intercalate_cons_of_ne_nil others, List.append_assoc, List.singleton_append]

/-- The names on a composed path are those of the file, composed. -/
theorem splitOn_nfc (composed : Composed strings) (found : Found)
    : (strings.nfc found.relative).splitOn '/' = (found.dirs ++ [found.name]).map strings.nfc := by
  have some : found.dirs ++ [found.name] ≠ [] := List.append_ne_nil_of_right_ne_nil _ (by simp)
  have clean : ∀ part ∈ (found.dirs ++ [found.name]).map strings.nfc, '/' ∉ part := by
    intro whole mem slash
    obtain ⟨part, isPart, rfl⟩ := List.mem_map.mp mem
    have inside := composed.nfc_clean part '/' (by decide) slash
    rcases List.mem_append.mp isPart with isDir | isLast
    · exact found.named.2 part isDir inside
    · rw [List.mem_singleton.mp isLast] at inside
      exact found.named.1 inside
  have others : (found.dirs ++ [found.name]).map strings.nfc ≠ [] := fun none_ =>
    some (List.map_eq_nil_iff.mp none_)
  rw [Found.relative, nfc_intercalate composed some, List.splitOn_intercalate _ clean others]

theorem baseName_nfc (composed : Composed strings) (found : Found)
    : baseName (strings.nfc found.relative) = strings.nfc found.name := by
  rw [baseName, splitOn_nfc composed]
  simp

end Corpus
