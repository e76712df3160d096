import Myndaix.Interaction.Answers
import Myndaix.Outcomes.Verbs

/-! The identity of a flagged line, and what is read of git for it: the line that a review raises,
and the lines that a file has at the reviewed tip.
-/

namespace Outcomes

open Interaction

-- Lines

/-- `_WS_RUN.sub(" ", content)`: each run of whitespace becomes one space. -/
def collapse : Bool → List Char → List Char
  | _, [] => []
  | inRun, char :: chars =>
      if isSpace char then
        if inRun then collapse true chars else ' ' :: collapse true chars
      else char :: collapse false chars

/-- `normalize_line`. -/
def normalizeLine (content : List Char) : List Char :=
  strip (collapse false content)

/-- `line_hash`. -/
def lineHash (host : Host) (content : List Char) : String :=
  host.sha256 (String.ofList (normalizeLine content))

/-- `text.split("\n")`. -/
def splitLines (text : List Char) : List (List Char) :=
  text.splitOn '\n'

/-- `text.split()`. -/
def splitWords (text : List Char) : List (List Char) :=
  (text.splitOnP isSpace).filter (fun word => !word.isEmpty)

/-- The hashes of a text's lines, but for blank ones. -/
def lineHashes (host : Host) (text : List Char) : List String :=
  ((splitLines text).filter (fun content => !(normalizeLine content).isEmpty)).map (lineHash host)

-- What is read of git

/-- A read of git objects: `git cat-file blob <tip>:<path>`, `git ls-tree <tip> --
:(literal)<path>`, and the changed hunks that `git diff <base> <tip> -- <path>` shows.
-/
inductive GitRead : Type where
  | catFile (tip path : String)
  | lsTree (tip path : String)
  | changedHunks (base tip path : String)

/-- Standard output, decoded, or none if git failed; the hunks of a failed diff are none. -/
abbrev GitRead.Answer : GitRead → Type
  | .catFile .. | .lsTree .. => Option (List Char)
  | .changedHunks .. => List (Nat × Nat)

abbrev GitProgram (Result : Type) : Type :=
  Program GitRead GitRead.Answer Result

/-- `_line_in_hunks`. -/
def lineInHunks (line : Nat) (hunks : List (Nat × Nat)) : Bool :=
  hunks.any (fun hunk => 0 < hunk.2 && hunk.1 ≤ line && line ≤ hunk.1 + hunk.2 - 1)

/-- `resolve_and_hash`. -/
def resolveAndHash (host : Host) (tip path : String) (line : Nat) (hunks : List (Nat × Nat))
    : GitProgram (Option String) :=
  if lineInHunks line hunks then
    .call (.catFile tip path) (fun out =>
      match out with
      | none => .done none
      | some text =>
          let lines := splitLines text
          if line < 1 ∨ lines.length < line then .done none
          else
            match lines[line - 1]? with
            | none => .done none
            | some content =>
                if (normalizeLine content).isEmpty then .done none
                else .done (some (lineHash host content)))
  else .done none

/-- `file_line_hashes`; none if it is undetermined what the file has. -/
def fileLineHashes (host : Host) (tip path : String) : GitProgram (Option (List String)) :=
  .call (.catFile tip path) (fun out =>
    match out with
    | some text => .done (some (lineHashes host text))
    | none =>
        .call (.lsTree tip path) (fun listed =>
          match listed with
          | none => .done none
          | some listed =>
              let listed :=
                (listed.reverse.dropWhile (fun char => char = '\n' || char = '\r')).reverse
              if listed.isEmpty then .done (some [])
              else
                match (splitWords listed)[1]? with
                | some type => if type = "blob".toList then .done none else .done (some [])
                | none => .done (some [])))

-- The recorder

/-- A finding as `parse_finding_lines` reads it. -/
structure ParsedFinding where
  tag : String
  path : String
  line : Nat

/-- A delivered review. -/
structure Delivered where
  repoId : String
  base : String
  tip : String
  ref : String
  play : String
  changedPaths : List String
  kilabz : List ParsedFinding
  oracle : List ParsedFinding

section Recorder

variable (host : Host) (delivered : Delivered)

/-- `hunks_cache[path]`: the hunks of a path are read once. -/
def cachedHunks (cache : List (String × List (Nat × Nat))) (path : String)
    : GitProgram (List (Nat × Nat)) :=
  match cache.lookup path with
  | some hunks => .done hunks
  | none => .call (.changedHunks delivered.base delivered.tip path) .done

/-- One finding of `_resolve_family`. -/
def resolveFinding (family : Family)
    (state : List (String × List (Nat × Nat)) × List OpenFinding) (finding : ParsedFinding)
    : GitProgram (List (String × List (Nat × Nat)) × List OpenFinding) := do
  let hunks ← cachedHunks delivered state.1 finding.path
  let resolved ← resolveAndHash host delivered.tip finding.path finding.line hunks
  match resolved with
  | none => return ((finding.path, hunks) :: state.1, state.2)
  | some lineHash =>
      return ((finding.path, hunks) :: state.1,
        state.2 ++ [⟨finding.tag, finding.path, lineHash, family⟩])

/-- `_resolve_family`. -/
def resolveFamily (family : Family) (findings : List ParsedFinding)
    : GitProgram (List OpenFinding) := do
  let state ← Program.fold (resolveFinding host delivered family) ([], []) findings
  return state.2

/-- `present[path] = file_line_hashes(...)`. -/
def readPresent (present : String → Option (List String)) (path : String)
    : GitProgram (String → Option (List String)) := do
  let hashes ← fileLineHashes host delivered.tip path
  return Function.update present path hashes

/-- `record`, up to its call of `record_findings`. -/
def recorder : GitProgram Review := do
  let kilabz ← resolveFamily host delivered .kilabz delivered.kilabz
  let oracle ← resolveFamily host delivered .oracle delivered.oracle
  let present ← Program.fold (readPresent host delivered) (fun _ => none) delivered.changedPaths
  return {
    repoId := delivered.repoId,
    ref := delivered.ref,
    tipSha := delivered.tip,
    play := delivered.play,
    changedPaths := delivered.changedPaths,
    openFindings := kilabz ++ oracle,
    present := present
  }

end Recorder

-- Git

/-- What a commit has at a path. -/
inductive Entry : Type where
  | absent
  | blob (text : List Char)
  /-- A directory or a submodule, by the name of its type. -/
  | other (type : List Char)

/-- What every commit has at every path. Objects never change. -/
structure Objects where
  entry : String → String → Entry
  /-- The names of types. -/
  typed
    : ∀ tip path type, entry tip path = .other type → type = "tree".toList ∨ type = "commit".toList

/-- The line that `git ls-tree` prints for an object. -/
def listing (mode type object name : List Char) : List Char :=
  mode ++ ' ' :: type ++ ' ' :: object ++ '\t' :: name ++ ['\n']

/-- A word without whitespace. -/
def IsWord (word : List Char) : Prop :=
  word ≠ [] ∧ ∀ char ∈ word, isSpace char = false

/-- A read may always fail; an answer is the truth. -/
def Objects.Answers (objects : Objects) : (read : GitRead) → read.Answer → Prop
  | .catFile tip path, out => ∀ text, out = some text → objects.entry tip path = .blob text
  | .lsTree tip path, out =>
      ∀ listed, out = some listed
        → match objects.entry tip path with
          | .absent => listed = []
          | .blob _ =>
              ∃ mode object name,
                IsWord mode ∧ IsWord object ∧ listed = listing mode "blob".toList object name
          | .other type =>
              ∃ mode object name,
                IsWord mode ∧ IsWord object ∧ listed = listing mode type object name
  | .changedHunks .., _ => True

/-- The reads of a file that fail. -/
def GitRead.Fails : (read : GitRead) → read.Answer → Prop
  | .catFile .., out | .lsTree .., out => out = none
  | .changedHunks .., _ => True

/-- A read of a file that does not fail. -/
def GitRead.Succeeds (objects : Objects) : (read : GitRead) → read.Answer → Prop
  | .catFile tip path, out => ∀ text, objects.entry tip path = .blob text → out = some text
  | .lsTree .., out => out ≠ none
  | .changedHunks .., _ => True

/-- The hashes of the lines that a commit has at a path. -/
def Objects.lineHashes (objects : Objects) (host : Host) (tip path : String) : List String :=
  match objects.entry tip path with
  | .blob text => Outcomes.lineHashes host text
  | .absent | .other _ => []

section Reads

variable {host : Host} {objects : Objects} {tip path : String}

/-- A hash that a finding is raised with is the hash of the line that it names. -/
theorem resolveAndHash_line {line : Nat} {hunks : List (Nat × Nat)} {hash : String}
    (resolved : (resolveAndHash host tip path line hunks).Yields objects.Answers (some hash))
    : ∃ text content,
        objects.entry tip path = .blob text ∧ (splitLines text)[line - 1]? = some content
        ∧ normalizeLine content ≠ [] ∧ hash = lineHash host content := by
  unfold resolveAndHash at resolved
  split at resolved
  · obtain ⟨out, truth, resolved⟩ := resolved
    cases out with
    | none => cases resolved
    | some text =>
        dsimp only at resolved
        split at resolved
        · cases resolved
        · split at resolved
          · cases resolved
          · rename_i content found
            split at resolved
            · cases resolved
            · rename_i filled
              cases resolved
              exact ⟨text, content, truth text rfl, found, by simpa using filled, rfl⟩
  · cases resolved

/-- The hash of a line of the file that is not blank. -/
theorem Objects.mem_lineHashes {text content : List Char}
    (isBlob : objects.entry tip path = .blob text) (mem : content ∈ splitLines text)
    (filled : normalizeLine content ≠ [])
    : lineHash host content ∈ objects.lineHashes host tip path := by
  rw [Objects.lineHashes, isBlob]
  exact List.mem_map.mpr ⟨content, List.mem_filter.mpr ⟨mem, by simpa using filled⟩, rfl⟩

/-- It is the hash of a line of the file at the tip. -/
theorem resolveAndHash_sound {line : Nat} {hunks : List (Nat × Nat)} {hash : String}
    (resolved : (resolveAndHash host tip path line hunks).Yields objects.Answers (some hash))
    : hash ∈ objects.lineHashes host tip path := by
  obtain ⟨text, content, isBlob, found, filled, rfl⟩ := resolveAndHash_line resolved
  exact Objects.mem_lineHashes isBlob (List.mem_of_getElem? found) filled

/-- Stripping line ends stops at a character that is none. -/
theorem rstrip_append (front : List Char) {char : Char}
    (stays : (char = '\n' || char = '\r') = false)
    (tail : List Char)
    : ∃ rest,
        ((front ++ char :: tail).reverse.dropWhile (fun char => char = '\n' || char = '\r')).reverse
        = front ++ char :: rest := by
  have general (back : List Char)
      : ∃ rest,
          (back ++ char :: front.reverse).dropWhile (fun char => char = '\n' || char = '\r')
          = rest ++ char :: front.reverse := by
    induction back with
    | nil => exact ⟨[], by rw [List.nil_append, List.dropWhile_cons_of_neg (by simp [stays])]⟩
    | cons other back ih =>
        rw [List.cons_append, List.dropWhile_cons]
        split
        · exact ih
        · exact ⟨other :: back, rfl⟩
  obtain ⟨rest, same⟩ := general tail.reverse
  refine ⟨rest.reverse, ?_⟩
  rw [List.reverse_append, List.reverse_cons, List.append_assoc, List.singleton_append, same]
  simp

/-- The second word of a listing is the type of the object. -/
theorem listing_type {mode type : List Char} (modeWord : IsWord mode) (typeWord : IsWord type)
    (object name : List Char)
    : (splitWords
        ((listing mode type object name).reverse.dropWhile
          (fun char => char = '\n' || char = '\r')).reverse)[1]?
      = some type := by
  have shape
      : listing mode type object name
        = (mode ++ ' ' :: type ++ ' ' :: object) ++ '\t' :: (name ++ ['\n']) := by
    simp [listing]
  have tab : ('\t' = '\n' || '\t' = '\r') = false := rfl
  obtain ⟨rest, stripped⟩ :=
    rstrip_append (mode ++ ' ' :: type ++ ' ' :: object) tab (name ++ ['\n'])
  rw [shape, stripped]
  have space : isSpace ' ' = true := rfl
  have words
      : (mode ++ ' ' :: type ++ ' ' :: object ++ '\t' :: rest).splitOnP isSpace
        = mode :: type :: (object ++ '\t' :: rest).splitOnP isSpace := by
    rw [List.append_assoc, List.append_assoc, List.cons_append,
      List.splitOnP_append_cons_of_forall_mem modeWord.2 ' ' space]
    rw [List.cons_append, List.splitOnP_append_cons_of_forall_mem typeWord.2 ' ' space]
  rw [splitWords, words, List.filter_cons_of_pos, List.filter_cons_of_pos]
  · rfl
  · simpa using typeWord.1
  · simpa using modeWord.1

/-- What is no file has a type of another name. -/
theorem Objects.other_type {type : List Char} (isOther : objects.entry tip path = .other type)
    : IsWord type ∧ type ≠ "blob".toList := by
  rcases objects.typed tip path type isOther with rfl | rfl <;>
    exact ⟨⟨by simp, by simp [isSpace]⟩, by simp⟩

/-- The lines that a file is found to have at the tip are those that it has there. -/
theorem fileLineHashes_sound {hashes : List String}
    (read : (fileLineHashes host tip path).Yields objects.Answers (some hashes))
    : hashes = objects.lineHashes host tip path := by
  obtain ⟨out, truth, read⟩ := read
  cases out with
  | some text =>
      cases read
      rw [Objects.lineHashes, truth text rfl]
  | none =>
      obtain ⟨out, truth, read⟩ := read
      cases out with
      | none => cases read
      | some listed =>
          have truth := truth listed rfl
          dsimp only at truth read
          cases entry : objects.entry tip path with
          | absent =>
              rw [entry] at truth
              subst truth
              cases read
              rw [Objects.lineHashes, entry]
          | blob text =>
              -- A file that could not be read is not taken for a file that is gone.
              rw [entry] at truth
              obtain ⟨mode, object, name, modeWord, _, rfl⟩ := truth
              have word : IsWord "blob".toList := ⟨by simp, by simp [isSpace]⟩
              have type_ := listing_type modeWord word object name
              split at read
              · rename_i empty
                rw [List.isEmpty_iff.mp empty] at type_
                cases type_
              · rw [type_] at read
                cases read
          | other type =>
              rw [entry] at truth
              obtain ⟨mode, object, name, modeWord, _, rfl⟩ := truth
              have word := Objects.other_type entry
              have type_ := listing_type modeWord word.1 object name
              rw [Objects.lineHashes, entry]
              split at read
              · cases read
                rfl
              · rw [type_] at read
                dsimp only at read
                rw [if_neg word.2] at read
                cases read
                rfl

/-- Where the reads of a file do not fail, its lines are determined. -/
theorem fileLineHashes_determined {hashes : Option (List String)}
    (read
      : (fileLineHashes host tip path).Yields
          (fun read answer => objects.Answers read answer ∧ read.Succeeds objects answer) hashes)
    : ∃ present, hashes = some present := by
  obtain ⟨out, truth, read⟩ := read
  cases out with
  | some text => exact ⟨_, read.symm⟩
  | none =>
      obtain ⟨listed, truth_, read⟩ := read
      cases listed with
      | none => exact absurd rfl truth_.2
      | some listed =>
          dsimp only at read
          have told := truth_.1 listed rfl
          split at read
          · exact ⟨_, read.symm⟩
          · split at read
            · split at read
              · rename_i type_ found isBlob
                -- The file would have been read.
                cases entry : objects.entry tip path with
                | blob text => cases truth.2 text entry
                | absent =>
                    rw [entry] at told
                    subst told
                    cases found
                | other type =>
                    rw [entry] at told
                    obtain ⟨mode, object, name, modeWord, _, rfl⟩ := told
                    obtain ⟨word, other⟩ := Objects.other_type entry
                    rw [listing_type modeWord word object name] at found
                    cases found
                    exact absurd isBlob other
              · exact ⟨_, read.symm⟩
            · exact ⟨_, read.symm⟩

/-- Where no read of a file succeeds, its lines are undetermined. -/
theorem fileLineHashes_failed {hashes : Option (List String)}
    (read : (fileLineHashes host tip path).Yields GitRead.Fails hashes)
    : hashes = none := by
  obtain ⟨out, failed, read⟩ := read
  obtain rfl : out = none := failed
  obtain ⟨out, failed, read⟩ := read
  obtain rfl : out = none := failed
  exact read.symm

end Reads

-- What the recorder hands over

section Recorder

variable {host : Host} {objects : Objects} {delivered : Delivered}

theorem resolveFamily_sound {family : Family} {findings : List ParsedFinding}
    {resolved : List OpenFinding}
    (read : (resolveFamily host delivered family findings).Yields objects.Answers resolved)
    : ∀ raised ∈ resolved,
        raised.lineHash ∈ objects.lineHashes host delivered.tip raised.path := by
  obtain ⟨state, folded, rfl⟩ := Program.yields_bind.mp read
  refine Program.Yields.fold
    (fun state : List (String × List (Nat × Nat)) × List OpenFinding =>
      ∀ raised ∈ state.2, raised.lineHash ∈ objects.lineHashes host delivered.tip raised.path)
    ?_ ?_ folded
  · intro state finding _ next sound round
    obtain ⟨hunks, _, round⟩ := Program.yields_bind.mp round
    obtain ⟨hash, resolved, round⟩ := Program.yields_bind.mp round
    cases hash with
    | none =>
        cases round
        exact sound
    | some hash =>
        cases round
        intro raised mem
        rcases List.mem_append.mp mem with old | new
        · exact sound raised old
        · rw [List.mem_singleton.mp new]
          exact resolveAndHash_sound resolved
  · intro raised mem
    cases mem

/-- What the recorder hands over is the truth about the tip, as far as git told it. -/
structure Review.Truthful (host : Host) (objects : Objects) (review : Review) : Prop where
  raised
    : ∀ raised ∈ review.openFindings,
        raised.lineHash ∈ objects.lineHashes host review.tipSha raised.path
  present
    : ∀ path hashes,
        review.present path = some hashes → hashes = objects.lineHashes host review.tipSha path

theorem recorder_truthful {review : Review}
    (read : (recorder host delivered).Yields objects.Answers review)
    : review.Truthful host objects := by
  obtain ⟨kilabz, kilabzRead, read⟩ := Program.yields_bind.mp read
  obtain ⟨oracle, oracleRead, read⟩ := Program.yields_bind.mp read
  obtain ⟨present, presentRead, rfl⟩ := Program.yields_bind.mp read
  refine ⟨fun raised mem => ?_, ?_⟩
  · rcases List.mem_append.mp mem with own | other
    · exact resolveFamily_sound kilabzRead raised own
    · exact resolveFamily_sound oracleRead raised other
  · refine Program.Yields.fold
      (fun present : String → Option (List String) =>
        ∀ path hashes,
          present path = some hashes → hashes = objects.lineHashes host delivered.tip path)
      ?_ (fun _ _ found => by cases found) presentRead
    intro present path _ next sound round other hashes found
    obtain ⟨answer, asked, rfl⟩ := Program.yields_bind.mp round
    rw [Function.update_apply] at found
    split at found
    · rename_i same
      subst same found
      exact fileLineHashes_sound asked
    · exact sound other hashes found

end Recorder

end Outcomes
