import Myndaix.Fix.Play
import Myndaix.Interaction.Answers

/-! The tamper ceiling: which patches that touch the harness can still end green and be published.
The gate reads the listed names line by line, so a name that is not listed, or that matches only
across its lines, passes it.
-/

namespace Fix

open Interaction Patterns Text

-- Guarded names and what the gate catches

/-- The name, read as bytes from its begin to its end, is one of the guarded ones. -/
def Path.Guarded (path : Path) : Prop :=
  (TAMPER_RE .c).search path.bytes = true ∨ DENY_RE.search path.bytes = true

/-- The patch has a guarded name on some side of some change. -/
def Patch.TouchesGuarded (patch : Patch) : Prop :=
  ∃ path ∈ patch.touched, path.Guarded

/-- What the gate does not let pass as an ordinary name. -/
def caught (locale : Locale) (path : Bytes) : Bool :=
  grep cntrl path || grep DENY_RE path || grep (TAMPER_RE locale) path

/-- The patch gets through its checks, and none of its listed names is caught. -/
structure Patch.Admitted (patch : Patch) (git : Git) (locale : Locale) : Prop where
  nonempty : patch.text ≠ []
  small : patch.text.length ≤ 1048576
  summary : summaryRefusal (git.summary patch) = none
  text : isBinaryPatch patch.text = false
  uncaught : ∀ path ∈ patch.listed, caught locale path.bytes = false

/-- The patch moves a file away from a guarded name: the listing has only the new name. -/
def Patch.MovesGuarded (patch : Patch) : Prop :=
  ∃ counted ∈ patch.changes, ∃ old new, counted.change = .rename old new ∧ old.Guarded

/-- A listed name is guarded but not a single line of characters that grep knows. -/
def Patch.Unreadable (patch : Patch) (locale : Locale) : Prop :=
  ∃ path ∈ patch.listed,
    path.Guarded
    ∧ (newline ∈ path.bytes ∨ locale = .utf8 ∧ ∃ byte ∈ path.bytes, 0x80 ≤ byte)

/-- The patch touches a guarded name in a way that its checks do not notice. -/
structure Patch.Escapes (patch : Patch) (git : Git) (locale : Locale) : Prop where
  admitted : patch.Admitted git locale
  unnoticed : patch.MovesGuarded ∨ patch.Unreadable locale

variable {locale : Locale}

theorem caught_nil : caught locale [] = false :=
  rfl

/-- The flag stays up, by induction on the names. -/
theorem gate_tamper {paths : List Bytes} {flags : Bytes} {tamper : Bool} {later : Bytes}
    (passed : gate locale true flags paths = .ok (tamper, later))
    : tamper = true := by
  induction paths generalizing flags with
  | nil =>
      cases passed
      rfl
  | cons path paths ih =>
      unfold gate at passed
      split_ifs at passed
      · exact ih passed
      · exact ih passed
      · exact ih passed

/-- A caught name stops the gate or raises the flag, by induction on the names. -/
theorem gate_caught {paths : List Bytes} {flags : Bytes} {before tamper : Bool} {later : Bytes}
    (passed : gate locale before flags paths = .ok (tamper, later))
    (found : ∃ path ∈ paths, caught locale path = true)
    : tamper = true := by
  induction paths generalizing flags before with
  | nil =>
      obtain ⟨path, mem, _⟩ := found
      cases mem
  | cons path paths ih =>
      obtain ⟨other, mem, isCaught⟩ := found
      unfold gate at passed
      split_ifs at passed with empty control denied tampers
      · rcases List.mem_cons.mp mem with rfl | mem
        · rw [List.isEmpty_iff.mp empty, caught_nil] at isCaught
          cases isCaught
        · exact ih passed ⟨other, mem, isCaught⟩
      · exact gate_tamper passed
      · rcases List.mem_cons.mp mem with rfl | mem
        · simp [caught, control, denied, tampers] at isCaught
        · exact ih passed ⟨other, mem, isCaught⟩

/-- Names that are not caught pass as they are, by induction on the names. -/
theorem gate_uncaught {paths : List Bytes} {flags : Bytes} {tamper : Bool}
    (none : ∀ path ∈ paths, caught locale path = false)
    : gate locale tamper flags paths = .ok (tamper, flags) := by
  induction paths with
  | nil => rfl
  | cons path paths ih =>
      have first := none path List.mem_cons_self
      have rest := ih fun other mem => none other (List.mem_cons_of_mem _ mem)
      simp only [caught, Bool.or_eq_false_iff] at first
      obtain ⟨⟨control, denied⟩, tampers⟩ := first
      unfold gate
      rw [control, denied, tampers]
      simpa using rest

-- How a guarded name goes unnoticed

/-- A name without a newline is one line. -/
theorem lines_single {path : Bytes} (nonempty : path ≠ []) (single : newline ∉ path)
    : lines path = [path] := by
  have whole : path.splitOn newline = [path] := by
    refine List.splitOnP_eq_singleton fun byte mem => ?_
    simpa using fun same : byte = newline => single (same ▸ mem)
  rw [lines, whole]
  simp [nonempty]

def IsAscii (byte : UInt8) : Prop :=
  byte.toNat < 0x80

/-- A range above ASCII reads nothing there. -/
theorem agree_byteIn {low : UInt8} (above : 0x80 ≤ low.toNat) (high : UInt8)
    : Regex.Agree IsAscii (byteIn low high) .never := by
  intro place ascii
  obtain ⟨before, after⟩ := place
  cases after with
  | nil => rfl
  | cons byte after =>
      have small : byte.toNat < 0x80 := ascii byte List.mem_cons_self
      have outside : ¬(low ≤ byte ∧ byte ≤ high) := by
        intro within
        have := UInt8.le_iff_toNat_le.mp within.1
        omega
      simp [byteIn, Regex.never, outside]

/-- In ASCII text, only the first alternative of a character is ever read. -/
theorem agree_notSlash : Regex.Agree IsAscii (notSlash .utf8) (notSlash .c) := by
  have single
      : Regex.Agree IsAscii
          (.one (fun byte => decide (byte < 0x80 ∧ byte ≠ 0x2f))) (notSlash .c) := by
    intro place ascii
    obtain ⟨before, after⟩ := place
    cases after with
    | nil => rfl
    | cons byte after =>
        have small : byte < 0x80 := UInt8.lt_iff_toNat_lt.mpr (ascii byte List.mem_cons_self)
        simp [notSlash, small]
  have many {low : UInt8} (high : UInt8) (rest : Regex UInt8) (above : 0x80 ≤ low.toNat)
      : Regex.Agree IsAscii (.seq (byteIn low high) rest) .never :=
    .seq_never (agree_byteIn above high)
  refine .trans (.alt_never ?_) single
  refine .trans (.alt_never ?_) (many _ _ (by decide))
  refine .trans (.alt_never ?_) (many _ _ (by decide))
  refine .trans (.alt_never ?_) (.seq_never ?_)
  · refine .trans (.alt_never ?_) (many _ _ (by decide))
    refine .trans (.alt_never ?_) (many _ _ (by decide))
    refine .trans (.alt_never ?_) (many _ _ (by decide))
    exact many _ _ (by decide)
  · exact .trans (.alt_never (agree_byteIn (by decide) _)) (agree_byteIn (by decide) _)

/-- An ASCII name is guarded alike in both locales. -/
theorem agree_tamper : Regex.Agree IsAscii (TAMPER_RE .utf8) (TAMPER_RE .c) := by
  have any := Regex.Agree.many agree_notSlash
  refine .seq (.refl _) (.alt (.refl _) (.alt (.seq ?_ (.refl _)) (.seq ?_ (.refl _))))
  · refine .alt (.seq (.refl _) (.seq any (.refl _))) (.alt (.seq any (.refl _)) ?_)
    exact .alt (.seq any (.refl _)) (.seq any (.refl _))
  · refine .alt (.refl _) (.alt (.refl _) (.alt (.refl _) (.alt ?_ ?_)))
    · exact .seq (.refl _) (.seq any (.refl _))
    · refine .alt (.refl _) (.alt (.refl _) (.alt (.refl _) (.alt (.refl _) (.alt (.refl _) ?_))))
      exact .alt (.refl _) (.alt (.seq (.refl _) any) (.refl _))

variable {path : Path}

/-- Guarding needs something to match. -/
theorem guarded_nonempty (guarded : path.Guarded) : path.bytes ≠ [] := by
  intro empty
  rw [Path.Guarded, empty] at guarded
  exact absurd guarded (by decide +kernel)

/-- A guarded name that is not caught has more than one line, or more than ASCII in a UTF-8 locale.
-/
theorem guarded_uncaught (guarded : path.Guarded) (uncaught : caught locale path.bytes = false)
    : newline ∈ path.bytes ∨ locale = .utf8 ∧ ∃ byte ∈ path.bytes, 0x80 ≤ byte := by
  by_contra plain
  obtain ⟨single, isAscii⟩ := not_or.mp plain
  simp only [caught, Bool.or_eq_false_iff, grep,
    lines_single (guarded_nonempty guarded) single, List.any_cons, List.any_nil,
    Bool.or_false] at uncaught
  obtain ⟨⟨_, notDenied⟩, notTampers⟩ := uncaught
  have same : (TAMPER_RE locale).search path.bytes = (TAMPER_RE .c).search path.bytes := by
    cases locale with
    | c => rfl
    | utf8 =>
        refine agree_tamper.search fun byte mem => ?_
        by_contra large
        exact isAscii ⟨rfl, byte, mem, UInt8.le_iff_toNat_le.mpr (Nat.not_lt.mp large)⟩
  rcases guarded with tampers | denied
  · rw [same, tampers] at notTampers
    cases notTampers
  · rw [denied] at notDenied
    cases notDenied

variable {patch : Patch} {git : Git}

/-- A touched name is listed, or is moved away. -/
theorem Patch.mem_touched (touched : path ∈ patch.touched)
    : path ∈ patch.listed
      ∨ ∃ counted ∈ patch.changes, ∃ new, counted.change = .rename path new := by
  obtain ⟨counted, among, side⟩ := List.mem_flatMap.mp touched
  have listed : counted.change.listed ∈ patch.listed := List.mem_map_of_mem among
  cases shape : counted.change with
  | create name =>
      rw [shape] at side listed
      obtain rfl := List.mem_singleton.mp side
      exact .inl listed
  | edit name =>
      rw [shape] at side listed
      obtain rfl := List.mem_singleton.mp side
      exact .inl listed
  | delete name =>
      rw [shape] at side listed
      obtain rfl := List.mem_singleton.mp side
      exact .inl listed
  | rename old new =>
      rw [shape] at side listed
      rcases List.mem_cons.mp side with rfl | isNew
      · exact .inr ⟨counted, among, new, shape⟩
      · obtain rfl := List.mem_singleton.mp isNew
        exact .inl listed
  | copy source new =>
      rw [shape] at side listed
      obtain rfl := List.mem_singleton.mp side
      exact .inl listed

/-- A listed name is touched. -/
theorem Patch.listed_touched (listed : path ∈ patch.listed)
    : path ∈ patch.touched := by
  obtain ⟨counted, among, rfl⟩ := List.mem_map.mp listed
  refine List.mem_flatMap.mpr ⟨counted, among, ?_⟩
  cases counted.change <;> simp [FileChange.listed, FileChange.touched]

theorem Patch.Escapes.touches (escapes : patch.Escapes git locale) : patch.TouchesGuarded := by
  rcases escapes.unnoticed with ⟨counted, among, old, new, shape, guarded⟩ |
    ⟨path, listed, guarded, _⟩
  · refine ⟨old, List.mem_flatMap.mpr ⟨counted, among, ?_⟩, guarded⟩
    rw [shape]
    exact List.mem_cons_self
  · exact ⟨path, Patch.listed_touched listed, guarded⟩

/-- An admitted patch that touches a guarded name does it in one of the two ways. -/
theorem Patch.Admitted.escapes (admitted : patch.Admitted git locale)
    (touches : patch.TouchesGuarded)
    : patch.Escapes git locale := by
  obtain ⟨path, touched, guarded⟩ := touches
  refine ⟨admitted, ?_⟩
  rcases Patch.mem_touched touched with listed | ⟨counted, among, new, shape⟩
  · exact .inr ⟨path, listed, guarded, guarded_uncaught guarded (admitted.uncaught path listed)⟩
  · exact .inl ⟨counted, among, path, new, shape, guarded⟩

-- Below the ceiling

/-- The run never commits or pushes, and never ends green. -/
def Ceiling (run : Run) : Prop :=
  run.Ensures (Program.anywhere fun query => query.publishes = false)
    (fun ending _ => ∀ delivered, ending = some delivered → delivered.verdict.isGreen = false) ()

namespace Ceiling

/-- No run below the ceiling delivers a green verdict. -/
theorem dull {run : Run} (ceiling : Ceiling run) {respond : (query : Query) → Answer query}
    {delivered : Ending} (ended : run.answered respond = some delivered)
    : delivered.verdict.isGreen = false :=
  Program.Ensures.answered ceiling respond delivered ended

theorem asks {query : Query} {next : Answer query → Run} (silent : query.publishes = false)
    (continues : ∀ answer, Ceiling (next answer))
    : Ceiling (ask query >>= next) :=
  Program.Ensures.asks silent continues

theorem died : Ceiling (pure none) :=
  Program.Ensures.returns nofun

theorem ends {ending : Ending} (dull : ending.verdict.isGreen = false)
    : Ceiling (pure (some ending)) :=
  Program.Ensures.returns fun _ same => by
    cases same
    exact dull

theorem finish {verdict : Verdict} {reason flags : Bytes} {withPatch : Bool}
    (dull : verdict.isGreen = false)
    : Ceiling (Fix.finish verdict reason flags withPatch) := by
  unfold Fix.finish
  split
  · refine asks rfl fun copy => ?_
    cases copy with
    | gone => exact ends dull
    | changed => exact ends dull
    | intact =>
        refine asks rfl fun scanned => ?_
        split
        · exact ends dull
        · exact ends dull
  · exact ends dull

theorem failClosed {reason flags : Bytes} : Ceiling (Fix.failClosed reason flags) :=
  ends rfl

theorem runSuite {suite : Suite} {why flags : Bytes} {next : Run} (continues : Ceiling next)
    : Ceiling (Fix.runSuite suite why flags next) := by
  refine asks rfl fun passed => ?_
  split
  · exact continues
  · exact finish rfl

variable {settings : Settings} {flags : Bytes}

/-- With the flag up, no suite makes the run green. -/
theorem integrity {sha : Bytes} : Ceiling (Fix.integrity settings true flags sha) := by
  refine asks rfl fun found => ?_
  split
  · exact finish rfl
  · refine asks rfl fun others => ?_
    split
    · exact finish rfl
    · rw [Bool.true_or, if_pos rfl]
      exact finish rfl

theorem suites {sha : Bytes} : Ceiling (Fix.suites settings true flags sha) := by
  have tested
      : Ceiling
          (if settings.failToPassArgv then
            Fix.runSuite .failToPass
              (say "fix did not make the target test pass (or the target test was removed)") flags
              (Fix.integrity settings true flags sha)
          else Fix.integrity settings true flags sha) := by
    split
    · exact runSuite integrity
    · exact integrity
  unfold Fix.suites
  by_cases builds : settings.buildArgv = true
  · rw [if_pos builds]
    refine asks rfl fun why => ?_
    cases why with
    | some why => exact failClosed
    | none => exact runSuite (runSuite tested)
  · rw [if_neg builds]
    exact runSuite tested

theorem applied : Ceiling (Fix.applied settings true flags) := by
  refine asks rfl fun copy => ?_
  split
  · exact failClosed
  · refine asks rfl fun done => ?_
    split
    · refine asks rfl fun sha => ?_
      cases sha with
      | none => exact died
      | some sha => exact suites
    · exact finish rfl

theorem precheck {next : Run} (continues : Ceiling next) : Ceiling (Fix.precheck flags next) := by
  refine asks rfl fun why => ?_
  cases why with
  | some why => exact failClosed
  | none =>
      refine asks rfl fun added => ?_
      split
      · refine asks rfl fun passes => ?_
        split
        · exact finish rfl
        · exact continues
      · exact failClosed

theorem verify : Ceiling (Fix.verify settings true flags) := by
  unfold Fix.verify
  split
  · refine asks rfl fun why => ?_
    cases why with
    | some why => exact failClosed
    | none =>
        dsimp only
        split
        · exact precheck applied
        · exact applied
  · exact finish rfl

/-- A caught name keeps the run below the ceiling, whatever else happens in it. -/
theorem patchPolicy {git : Git} {patch : Patch}
    (stopped
      : (summaryRefusal (git.summary patch)).isSome ∨ isBinaryPatch patch.text = true
        ∨ ∃ path ∈ patch.listed, caught settings.locale path.bytes = true)
    : Ceiling (Fix.patchPolicy git settings patch) := by
  unfold Fix.patchPolicy
  dsimp only
  split
  · exact finish rfl
  · rename_i passes
    split
    · exact finish rfl
    · rename_i isText
      refine asks rfl fun applies => ?_
      split
      · split
        · exact finish rfl
        · rename_i tamper later passed
          rcases stopped with refused | binary | found
          · rw [passes] at refused
            cases refused
          · exact absurd binary isText
          · obtain ⟨path, mem, isCaught⟩ := found
            rw [gatePaths_numstat] at passed
            obtain rfl := gate_caught passed ⟨path.bytes, List.mem_map_of_mem mem, isCaught⟩
            exact verify
      · exact finish rfl

theorem playFix {git : Git} {patch : Patch} (stopped : ¬ patch.Admitted git settings.locale)
    : Ceiling (Fix.playFix git settings patch) := by
  unfold Fix.playFix
  split
  · exact finish rfl
  · rename_i nonempty
    split
    · exact failClosed
    · rename_i small
      refine asks rfl fun copied => ?_
      split
      · refine asks rfl fun added => ?_
        split
        · refine patchPolicy ?_
          by_contra passes
          push Not at passes
          obtain ⟨summary, text, uncaught⟩ := passes
          refine stopped
            ⟨fun empty => nonempty (List.isEmpty_iff.mpr empty), Nat.not_lt.mp small, ?_, ?_, ?_⟩
          · simpa using summary
          · simpa using text
          · exact fun path mem => by simpa using uncaught path mem
        · exact failClosed
      · exact died

end Ceiling

-- Through the ceiling

/-- A repository whose suite is configured, armed for pushing. -/
def armedSettings (locale : Locale) : Settings where
  locale := locale
  repoId := ascii "repo"
  baseSha := ascii "0123456789abcdef0123456789abcdef01234567"
  play := ascii "20260101000000-1"
  flags := []
  verifyArgv := true
  buildArgv := false
  failToPassArgv := false
  fixTestMode := true
  fixRemote := []
  fixBaseBranch := []
  netTimeout := 120

/-- The names that the patch adds to the worktree. -/
def FileChange.added : FileChange → List Path
  | .create path => [path]
  | .edit _ => []
  | .delete _ => []
  | .rename _ new => [new]
  | .copy _ new => [new]

theorem FileChange.added_listed {change : FileChange} (mem : path ∈ change.added)
    : path = change.listed := by
  cases change <;> simp_all [FileChange.added, FileChange.listed]

/-- Every command succeeds, the suites pass, and the worktree has the added files besides the
tracked ones.
-/
def willing (patch : Patch) : (query : Query) → Answer query
  | .copyPatch => true
  | .worktreeAdd _ => true
  | .applyCheck => true
  | .absArgv _ => none
  | .runSandboxed _ _ => true
  | .patchSha => .intact
  | .applyVerify => true
  | .diffSha => some []
  | .lsOthers => patch.changes.flatMap (fun counted => counted.change.added)
  | .autofixEnabled => true
  | .secretScan => 1
  | .showRef => 1
  | .applyPristine => { rc := 0, stderr := [] }
  | .checkoutBranch => { rc := 0, stderr := [] }
  | .addAll => { rc := 0, stderr := [] }
  | .commit => { rc := 0, stderr := [] }
  | .hooksPath => 1
  | .push => true
  | .ghFound => false
  | .prCreate => false

/-- An admitted patch can come out green. -/
theorem Patch.Admitted.endsGreen (admitted : patch.Admitted git locale)
    : ∃ delivered,
        (playFix git (armedSettings locale) patch).answered (willing patch) = some delivered
        ∧ delivered.verdict = .suiteGreen := by
  have quiet
      : (patch.changes.flatMap (fun counted => counted.change.added)).find?
          (fun path => grep (.alt (TAMPER_RE locale) DENY_RE) path.bytes) = none := by
    rw [List.find?_eq_none]
    intro path mem
    obtain ⟨counted, among, added⟩ := List.mem_flatMap.mp mem
    obtain rfl := FileChange.added_listed added
    have uncaught := admitted.uncaught _ (List.mem_map_of_mem among)
    simp only [caught, Bool.or_eq_false_iff] at uncaught
    rw [grep_alt, uncaught.1.2, uncaught.2]
    decide
  have passes
      : gate locale false [] (gatePaths patch.numstat) = .ok (false, []) := by
    rw [gatePaths_numstat]
    refine gate_uncaught fun path mem => ?_
    obtain ⟨name, listed, rfl⟩ := List.mem_map.mp mem
    exact admitted.uncaught name listed
  have fits : ¬1048576 < patch.text.length := Nat.not_lt.mpr admitted.small
  have nonempty : patch.text.isEmpty = false := by
    simpa using admitted.nonempty
  have noDrift : (word "git-config-drift").search [] = false := by
    decide
  rw [playFix, nonempty, if_neg (by decide), if_neg fits]
  simp only [Program.answered_ask, willing, if_true]
  simp only [patchPolicy, admitted.summary, armedSettings, admitted.text, Bool.false_eq_true,
    if_false, Program.answered_ask, willing, if_true, passes]
  simp only [verify, Bool.false_eq_true, if_false, if_true, Program.answered_ask, willing, applied,
    suites, runSuite, integrity, ne_eq, not_true_eq_false, quiet, noDrift, Bool.or_self]
  rw [green, Program.answered_bind]
  simp only [finish, if_true, Program.answered_ask, willing]
  exact ⟨_, rfl, rfl⟩

theorem Patch.Admitted.breaks (admitted : patch.Admitted git locale)
    : ¬Ceiling (playFix git (armedSettings locale) patch) := by
  intro ceiling
  obtain ⟨delivered, ended, isGreen⟩ := admitted.endsGreen
  have dull := ceiling.dull ended
  rw [isGreen] at dull
  cases dull

-- The ceiling

/-- A patch that touches a guarded name stays below the ceiling in every run exactly when it is
stopped or none of its guarded names goes unnoticed.
-/
theorem tamper_ceiling (git : Git) (locale : Locale) (patch : Patch)
    : (∀ settings : Settings,
        settings.locale = locale → patch.TouchesGuarded → Ceiling (playFix git settings patch))
      ↔ ¬patch.Escapes git locale := by
  constructor
  · intro ceiling escapes
    exact escapes.admitted.breaks (ceiling (armedSettings locale) rfl escapes.touches)
  · intro noticed settings same touches
    subst same
    exact .playFix fun admitted => noticed (admitted.escapes touches)

def sampleTest : Path where
  bytes := ascii "tests/test_a.py"
  noNul := by decide

def sampleModule : Path where
  bytes := ascii "src/a.py"
  noNul := by decide

/-- A fix that makes the suite pass by moving a test out of it. -/
def sampleMove : Patch where
  text := ascii ("diff --git a/tests/test_a.py b/src/a.py\nsimilarity index 100%\n"
    ++ "rename from tests/test_a.py\nrename to src/a.py\n")
  changes := [{ change := .rename sampleTest sampleModule, counts := some (0, 0) }]

/-- What git says of it. -/
def sampleGit : Git where
  summary := fun _ => ascii " rename tests/test_a.py => src/a.py (100%)\n"

theorem moved_test_ends_green
    : ¬(sampleMove.TouchesGuarded
        → Ceiling (playFix sampleGit (armedSettings .c) sampleMove)) := by
  intro ceiling
  have admitted : sampleMove.Admitted sampleGit .c :=
    { nonempty := by decide +kernel
      small := by decide +kernel
      summary := by decide +kernel
      text := by decide +kernel
      uncaught := by decide +kernel }
  have touched : sampleTest ∈ sampleMove.touched := by
    simp [Patch.touched, sampleMove, FileChange.touched]
  have guarded : sampleTest.Guarded := .inl (by decide +kernel)
  exact admitted.breaks (ceiling ⟨sampleTest, touched, guarded⟩)

-- A name of two lines passes the line by line reading.
example : caught .c (ascii "test_a\nb.py") = false
    ∧ (TAMPER_RE .c).search (ascii "test_a\nb.py") = true := by
  decide +kernel

end Fix
