import Myndaix.Patterns.Regex
import Myndaix.Text.Bytes

/-! The patches that the fix stage takes from its fixer, what git says of them, and the names the
stage guards.
-/

namespace Fix

open Patterns Text

def tab : UInt8 :=
  9

def newline : UInt8 :=
  10

-- Searching as grep does

/-- The lines that grep sees in what `printf '%s'` hands it. -/
def lines (text : Bytes) : List Bytes :=
  let parts := text.splitOn newline
  if parts.getLast? = some [] then parts.dropLast else parts

/-- `grep -q`: some line has a match. -/
def grep (regex : Regex UInt8) (text : Bytes) : Bool :=
  (lines text).any regex.search

theorem grep_alt (first second : Regex UInt8) (text : Bytes)
    : grep (.alt first second) text = (grep first text || grep second text) := by
  unfold grep
  induction lines text with
  | nil => rfl
  | cons line rest ih =>
      rw [List.any_cons, List.any_cons, List.any_cons, ih, Regex.search_alt]
      simp only [Bool.or_assoc, Bool.or_left_comm]

/-- How the environment has grep read characters. -/
inductive Locale where
  | c
  | utf8
deriving Repr, DecidableEq

def byteIn (low high : UInt8) : Regex UInt8 :=
  .one (fun byte => decide (low ≤ byte ∧ byte ≤ high))

/-- `[^/]`. A byte that is no part of a character matches nothing in a UTF-8 locale. -/
def notSlash : Locale → Regex UInt8
  | .c => .one (fun byte => decide (byte ≠ 0x2f))
  | .utf8 =>
      .choice [
        .one (fun byte => decide (byte < 0x80 ∧ byte ≠ 0x2f)),
        .sequence [byteIn 0xc2 0xdf, byteIn 0x80 0xbf],
        .sequence [byteIn 0xe0 0xe0, byteIn 0xa0 0xbf, byteIn 0x80 0xbf],
        .sequence [
          .choice [byteIn 0xe1 0xec, byteIn 0xee 0xef], byteIn 0x80 0xbf, byteIn 0x80 0xbf],
        .sequence [byteIn 0xed 0xed, byteIn 0x80 0x9f, byteIn 0x80 0xbf],
        .sequence [byteIn 0xf0 0xf0, byteIn 0x90 0xbf, byteIn 0x80 0xbf, byteIn 0x80 0xbf],
        .sequence [byteIn 0xf1 0xf3, byteIn 0x80 0xbf, byteIn 0x80 0xbf, byteIn 0x80 0xbf],
        .sequence [byteIn 0xf4 0xf4, byteIn 0x80 0x8f, byteIn 0x80 0xbf, byteIn 0x80 0xbf]
      ]

def word (text : String) : Regex UInt8 :=
  .literal (ascii text)

def words (texts : List String) : Regex UInt8 :=
  .choice (texts.map word)

/-- `(^|/)`. -/
def atName : Regex UInt8 :=
  .choice [.start, word "/"]

/-- The names of a harness: test directories, test files, and the files that configure tests,
dependencies and builds.
-/
def TAMPER_RE (locale : Locale) : Regex UInt8 :=
  let any := Regex.many (notSlash locale)
  .seq atName (.choice [
    .seq (.choice [.seq (word "test") (.optional (word "s")), word "__tests__",
      .seq (word "spec") (.optional (word "s"))]) (word "/"),
    .seq (.choice [
      .sequence [word "test_", any, word ".py"],
      .sequence [any, word "_test.", words ["py", "go"]],
      .sequence [any, word ".", words ["test", "spec"], word ".",
        .optional (words ["c", "m"]), words ["j", "t"], word "s", .optional (word "x")],
      .sequence [any, word "Test", .optional (word "s"), word ".", words ["java", "kt", "swift"]]
    ]) .stop,
    .seq (.choice [
      words ["conftest.py", "pytest.ini", "tox.ini", "noxfile.py", "setup.cfg", "setup.py"],
      .sequence [word "jest.config.", .repeated (byteIn 0x61 0x7a)],
      words ["package.json", "package-lock.json", "yarn.lock", "pnpm-lock.yaml"],
      .sequence [word "requirements", any, word ".txt"],
      words ["pyproject.toml", "uv.lock", "poetry.lock"],
      .seq (word "Pipfile") (.optional (word ".lock")),
      .seq (word "Gemfile") (.optional (word ".lock")),
      .seq (word "Cargo.") (words ["toml", "lock"]),
      .seq (word "go.") (words ["mod", "sum"]),
      word "pom.xml",
      .seq (word "build.gradle") any,
      words ["Makefile", "Dockerfile", ".github"]
    ]) (.choice [word "/", .stop])
  ])

/-- The names that no patch may touch. -/
def DENY_RE : Regex UInt8 :=
  .seq atName (words [".envrc", ".gitmodules", ".git/"])

/-- `[[:cntrl:]]` in the C locale. -/
def cntrl : Regex UInt8 :=
  .one (fun byte => decide (byte < 0x20 ∨ byte = 0x7f))

-- Patches

/-- The name of a file. No name has a NUL. -/
structure Path where
  bytes : Bytes
  noNul : (0 : UInt8) ∉ bytes
deriving DecidableEq

/-- What a patch does to one file. -/
inductive FileChange where
  | create (path : Path)
  | edit (path : Path)
  | delete (path : Path)
  | rename (old new : Path)
  | copy (source new : Path)
deriving DecidableEq

namespace FileChange

/-- The names that exist differently after the change, on either side of it. -/
def touched : FileChange → List Path
  | .create path => [path]
  | .edit path => [path]
  | .delete path => [path]
  | .rename old new => [old, new]
  | .copy _ new => [new]

/-- The name that `git apply --numstat` prints: the new one where there is one. -/
def listed : FileChange → Path
  | .create path => path
  | .edit path => path
  | .delete path => path
  | .rename _ new => new
  | .copy _ new => new

/-- A change with its two columns of line counts; a binary one has none. -/
structure Counted where
  change : FileChange
  counts : Option (Nat × Nat)

end FileChange

/-- A patch: the bytes of the artifact and what git finds in them. -/
structure Patch where
  text : Bytes
  changes : List FileChange.Counted

namespace Patch

def touched (patch : Patch) : List Path :=
  patch.changes.flatMap (fun counted => counted.change.touched)

def listed (patch : Patch) : List Path :=
  patch.changes.map (fun counted => counted.change.listed)

end Patch

/-- A count as numstat prints it. -/
def column (count : Option Nat) : Bytes :=
  (count.map (fun number => ascii number.repr)).getD (ascii "-")

/-- One record of `git apply --numstat -z`, without the NUL that ends it. -/
def FileChange.Counted.numstatRecord (counted : FileChange.Counted) : Bytes :=
  column (counted.counts.map Prod.fst) ++ tab
    :: (column (counted.counts.map Prod.snd) ++ tab :: counted.change.listed.bytes)

/-- What `git apply --numstat -z` prints. -/
def Patch.numstat (patch : Patch) : Bytes :=
  patch.changes.flatMap (fun counted => counted.numstatRecord ++ [0])

-- Reading the listing

/-- `read -r -d ''` in a loop: what stands before each NUL. -/
def readRecords (record : Bytes) : Bytes → List Bytes
  | [] => []
  | byte :: rest =>
      if byte = 0 then record.reverse :: readRecords [] rest
      else readRecords (byte :: record) rest

/-- Take everything up to the first tab off, if there is one. -/
def dropColumn (record : Bytes) : Bytes :=
  match record.dropWhile (fun byte => decide (byte ≠ tab)) with
  | [] => record
  | _ :: rest => rest

/-- The names that the gate sees. -/
def gatePaths (numstat : Bytes) : List Bytes :=
  (readRecords [] numstat).map (fun record => dropColumn (dropColumn record))

/-- Reading stops at the first NUL, by induction on what stands before it. -/
theorem readRecords_append {record : Bytes} (noNul : (0 : UInt8) ∉ record) (read rest : Bytes)
    : readRecords read (record ++ 0 :: rest)
      = (read.reverse ++ record) :: readRecords [] rest := by
  induction record generalizing read with
  | nil => simp [readRecords]
  | cons byte record ih =>
      obtain ⟨notNul, noNul⟩ := not_or.mp (mt List.mem_cons.mpr noNul)
      rw [List.cons_append, readRecords, if_neg (Ne.symm notNul), ih noNul]
      simp

theorem dropColumn_append {column : Bytes} (noTab : tab ∉ column) (rest : Bytes)
    : dropColumn (column ++ tab :: rest) = rest := by
  unfold dropColumn
  rw [List.dropWhile_append_of_pos]
  · simp
  · intro byte mem
    exact decide_eq_true fun same => noTab (same ▸ mem)

/-- Digits are neither a tab nor a NUL. -/
theorem ascii_repr_ne (number : Nat) {byte : UInt8} (mem : byte ∈ ascii number.repr)
    : byte ≠ tab ∧ byte ≠ 0 := by
  obtain ⟨char, digit, rfl⟩ := List.mem_map.mp mem
  rw [Nat.toList_repr] at digit
  have isDigit := Nat.isDigit_of_mem_toDigits (by decide) (by decide) digit
  obtain ⟨low, high⟩ : 48 ≤ char.toNat ∧ char.toNat ≤ 57 := by
    simpa [Char.isDigit, UInt32.le_iff_toNat_le] using isDigit
  generalize char.toNat = code at low high
  constructor <;> intro same <;> have := congrArg UInt8.toNat same <;> simp [tab] at this <;> omega

theorem column_ne (count : Option Nat) {byte : UInt8} (mem : byte ∈ column count)
    : byte ≠ tab ∧ byte ≠ 0 := by
  cases count with
  | none =>
      obtain rfl : byte = 45 := by simpa [column, ascii] using mem
      decide
  | some number => exact ascii_repr_ne number mem

/-- The gate sees exactly the listed names. -/
theorem gatePaths_numstat (patch : Patch)
    : gatePaths patch.numstat = patch.listed.map Path.bytes := by
  unfold gatePaths Patch.numstat Patch.listed
  induction patch.changes with
  | nil => rfl
  | cons counted changes ih =>
      have noNul : (0 : UInt8) ∉ counted.numstatRecord := by
        intro mem
        simp only [FileChange.Counted.numstatRecord, List.mem_append, List.mem_cons] at mem
        rcases mem with added | isTab | deleted | isTab | name
        · exact (column_ne _ added).2 rfl
        · exact absurd isTab (by decide)
        · exact (column_ne _ deleted).2 rfl
        · exact absurd isTab (by decide)
        · exact counted.change.listed.noNul name
      rw [List.flatMap_cons, List.append_assoc, List.singleton_append, readRecords_append noNul,
        List.map_cons, List.map_cons, List.map_cons, ih, List.reverse_nil, List.nil_append,
        FileChange.Counted.numstatRecord, dropColumn_append fun mem => (column_ne _ mem).1 rfl,
        dropColumn_append fun mem => (column_ne _ mem).1 rfl]

end Fix
