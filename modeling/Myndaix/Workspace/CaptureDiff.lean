import Myndaix.Knowledge.Newlines

/-! The diff of a worktree, on its way from git's output through a text to the patch file. The text
is decoded strictly and its line ends are translated, and the patch is what is left of it.
-/

namespace Workspace

open Curate (Str universalNewlines)
open Knowledge (trim_universalNewlines universalNewlines_eq_self)
open Outcomes (isSpace)
open Text

-- Git

structure Output where
  stdout : Bytes
  stderr : Bytes
deriving DecidableEq

inductive GitFailure where
  | calledProcess (exitCode : Int)
  | timeout
deriving DecidableEq, Repr

/-- What git does with the trees of a repository. -/
structure Git (Tree : Type) where
  /-- `git add -A` in a worktree. -/
  addAll : Tree → Except GitFailure Output
  /-- `git diff --cached` of the base and the worktree's content. -/
  diffCached : Tree → Tree → Except GitFailure Output
  /-- `git apply` of a patch to a tree. -/
  apply : Tree → Bytes → Option Tree
  /-- Some file differs whose content is binary to git. -/
  differsInBinary : Tree → Tree → Bool

-- The code

inductive Raised where
  | git (failure : GitFailure)
  | unicodeDecode
deriving DecidableEq, Repr

/-- `_git`: the output as a text (`text=True`), with every kind of line end as a line feed. -/
def gitText (ran : Except GitFailure Output) : Except Raised Str :=
  match ran with
  | .error failure => .error (.git failure)
  | .ok output =>
      match decodeUtf8 output.stdout, decodeUtf8 output.stderr with
      | some text, some _ => .ok (universalNewlines text)
      | _, _ => .error .unicodeDecode

structure Patch where
  path : String
  data : Bytes
deriving DecidableEq

/-- `capture_diff` of a worktree with such a name. -/
def captureDiff {Tree : Type} (git : Git Tree) (root name : String) (base worktree : Tree)
    : Except Raised (Option Patch) := do
  let _ ← gitText (git.addAll worktree)
  let diff ← gitText (git.diffCached base worktree)
  if trim isSpace diff = [] then return none
  return some { path := root ++ "/" ++ name ++ ".patch", data := utf8 diff }

-- What is lost

section Lossless

variable {Tree : Type} {git : Git Tree} {root name : String} {base worktree : Tree}

/-- What git is known to do with two trees. It prints nothing but the diff, with unusual names
quoted; a diff is empty if nothing differs, and otherwise not blank; and its patch brings the
content back, unless a binary file differs, whose content the patch then lacks.
-/
structure Git.Behaves (git : Git Tree) (base worktree : Tree) (printed : Bytes) : Prop where
  adds : ∃ text, gitText (git.addAll worktree) = .ok text
  prints : git.diffCached base worktree = .ok { stdout := printed, stderr := [] }
  nothing : base = worktree → printed = []
  something
    : base ≠ worktree
      → ∀ text, decodeUtf8 printed = some text → ∃ char ∈ text, isSpace char = false
  applies
    : base ≠ worktree → git.differsInBinary base worktree = false
      → git.apply base printed = some worktree
  refuses : git.differsInBinary base worktree = true → git.apply base printed ≠ some worktree

/-- The patch is what git printed, and gives the worktree's content back; there is none only if
nothing has changed.
-/
def Lossless (git : Git Tree) (base worktree : Tree) (printed : Bytes)
    : Except Raised (Option Patch) → Prop
  | .error _ => False
  | .ok none => base = worktree
  | .ok (some patch) => patch.data = printed ∧ git.apply base patch.data = some worktree

/-- The diff comes through the text as it is. -/
def Passes (printed : Bytes) : Prop :=
  ∃ text, decodeUtf8 printed = some text ∧ '\r' ∉ text

theorem captureDiff_eq {printed : Bytes} (behaves : git.Behaves base worktree printed)
    : captureDiff git root name base worktree
      = match decodeUtf8 printed with
        | none => .error .unicodeDecode
        | some text =>
            if trim isSpace (universalNewlines text) = [] then .ok none
            else .ok (some ⟨root ++ "/" ++ name ++ ".patch", utf8 (universalNewlines text)⟩) := by
  obtain ⟨added, adds⟩ := behaves.adds
  have quiet : decodeUtf8 [] = some [] := decodeUtf8_utf8 []
  unfold captureDiff
  rw [adds, behaves.prints, gitText]
  simp only [quiet]
  cases decodeUtf8 printed with
  | none => rfl
  | some text =>
      dsimp only [bind, Except.bind]
      split
      · rfl
      · rfl

/-- A captured diff is lossless exactly if nothing has changed, or what git printed is UTF-8 without
carriage returns and no binary file differs.
-/
theorem captureDiff_lossless_iff {printed : Bytes} (behaves : git.Behaves base worktree printed)
    : Lossless git base worktree printed (captureDiff git root name base worktree)
      ↔ base = worktree ∨ Passes printed ∧ git.differsInBinary base worktree = false := by
  rw [captureDiff_eq behaves]
  by_cases same : base = worktree
  · have empty : decodeUtf8 printed = some [] := by
      rw [behaves.nothing same]
      exact decodeUtf8_utf8 []
    rw [empty]
    exact iff_of_true same (.inl same)
  · rw [or_iff_right same]
    cases decoded : decodeUtf8 printed with
    | none =>
        refine iff_of_false id ?_
        rintro ⟨⟨text, found, _⟩, _⟩
        rw [decoded] at found
        cases found
    | some text =>
        obtain ⟨char, mem, filled⟩ := behaves.something same text decoded
        have passes : Passes printed ↔ utf8 (universalNewlines text) = printed := by
          rw [Passes, decoded, ← utf8_decodeUtf8 decoded]
          constructor
          · rintro ⟨_, ⟨⟩, absent⟩
            rw [universalNewlines_eq_self.mpr absent]
          · exact fun unchanged =>
              ⟨text, rfl, universalNewlines_eq_self.mp (utf8_injective unchanged)⟩
        simp only [if_neg (trim_universalNewlines mem filled), Lossless, passes]
        refine and_congr_right fun unchanged => ?_
        rw [unchanged]
        cases binary : git.differsInBinary base worktree with
        | false => exact iff_of_true (behaves.applies same binary) rfl
        | true => exact iff_of_false (behaves.refuses binary) nofun

end Lossless

-- A file of one line

/-- The diff of a file with one line, up to the old line, without the `index` line: `git apply` has
no use for it.
-/
def lineHeader : Str :=
  "diff --git a/a.txt b/a.txt\n--- a/a.txt\n+++ b/a.txt\n@@ -1 +1 @@\n-".toList

def lineDiff (base worktree : Str) : Str :=
  lineHeader ++ (base ++ ['\n', '+'] ++ (worktree ++ ['\n']))

/-- What git does with a repository that has just this file. -/
def lineGit : Git Str where
  addAll := fun _ => .ok { stdout := [], stderr := [] }
  diffCached := fun base worktree => .ok {
    stdout := if base = worktree then [] else utf8 (lineDiff base worktree)
    stderr := []
  }
  apply := fun base patch =>
    (decodeUtf8 patch).bind fun text =>
      let rest := text.drop lineHeader.length
      if base ++ ['\n', '+'] <+: rest then some (rest.drop (base.length + 2)).dropLast else none
  differsInBinary := fun _ _ => false

section Line

variable {base worktree : Str}

theorem lineDiff_filled : ∃ char ∈ lineDiff base worktree, isSpace char = false := by
  refine ⟨'+', ?_, by decide⟩
  rw [lineDiff, List.mem_append, List.mem_append, List.mem_append]
  exact .inr (.inl (.inr (.tail _ (.head _))))

theorem lineGit_behaves (differ : base ≠ worktree)
    : lineGit.Behaves base worktree (utf8 (lineDiff base worktree)) where
  adds := by
    have quiet : decodeUtf8 [] = some [] := decodeUtf8_utf8 []
    refine ⟨[], ?_⟩
    simp only [gitText, lineGit, quiet, universalNewlines]
  prints := by simp only [lineGit, if_neg differ]
  nothing := fun same => absurd same differ
  something := by
    intro _ text decoded
    rw [decodeUtf8_utf8, Option.some.injEq] at decoded
    rw [← decoded]
    exact lineDiff_filled
  applies := by
    intro _ _
    have length : base.length + 2 = (base ++ ['\n', '+']).length := by simp
    simp only [lineGit, decodeUtf8_utf8, Option.bind_some]
    rw [lineDiff, List.drop_left, if_pos (List.prefix_append _ _), length, List.drop_left,
      List.dropLast_concat]
  refuses := nofun

/-- The patch of a line that ends with a carriage return is not what git printed. -/
theorem lineGit_lossy (differ : base ≠ worktree) (mem : '\r' ∈ worktree) (root name : String)
    : ¬ Lossless lineGit base worktree (utf8 (lineDiff base worktree))
          (captureDiff lineGit root name base worktree) := by
  rw [captureDiff_eq (lineGit_behaves differ), decodeUtf8_utf8]
  dsimp only
  split
  · exact differ
  · rintro ⟨unchanged, _⟩
    refine universalNewlines_eq_self.mp (utf8_injective unchanged) ?_
    rw [lineDiff, List.mem_append, List.mem_append]
    exact .inr (.inr (List.mem_append_left _ mem))

end Line

theorem lineDiff_noReturn : '\r' ∉ lineDiff ['a'] ['b'] := by
  decide +kernel

theorem captureDiff_lossless_iff_line
    : Lossless lineGit ['a'] ['b'] (utf8 (lineDiff ['a'] ['b']))
        (captureDiff lineGit "/tmp/mdx-worktrees" "wt-7" ['a'] ['b']) := by
  have differ : ['a'] ≠ ['b'] := by decide
  have passes : Passes (utf8 (lineDiff ['a'] ['b'])) :=
    ⟨_, decodeUtf8_utf8 _, lineDiff_noReturn⟩
  exact (captureDiff_lossless_iff (lineGit_behaves differ)).mpr (.inr (.intro passes rfl))

/-- An agent that ends the line with CR LF: the patch has no trace of it. -/
theorem captureDiff_drops_returns
    : ¬ ∀ (git : Git Str) root name base worktree printed,
          git.Behaves base worktree printed
          → Lossless git base worktree printed (captureDiff git root name base worktree) := by
  intro claim
  obtain ⟨base, worktree, differ, mem⟩
      : ∃ base worktree : Str, base ≠ worktree ∧ '\r' ∈ worktree :=
    ⟨['a'], ['a', '\r'], by decide, .tail _ (.head _)⟩
  exact lineGit_lossy differ mem _ _
    (claim lineGit "/tmp/mdx-worktrees" "wt-7" _ _ _ (lineGit_behaves differ))

end Workspace
