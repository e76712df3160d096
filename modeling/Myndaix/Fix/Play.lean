import Myndaix.Fix.Patch
import Myndaix.Interaction.Program

/-! A run of the fix stage, from the artifact its fixer left to the verdict: the patch policy, the
sandboxed suites, the integrity check after them, and the branch that a green run may push.
-/

namespace Fix

open Interaction Patterns Text

/-- The bytes of a message. -/
def say (text : String) : Bytes :=
  utf8 text.toList

def sayNat (number : Nat) : Bytes :=
  say number.repr

-- What a run asks of its surroundings

inductive Worktree where
  | verify
  | precheck
  | apply
deriving Repr, DecidableEq

/-- The commands that the repository map configures. -/
inductive Suite where
  | verify
  | build
  | failToPass
deriving Repr, DecidableEq

/-- What the private copy of the patch is found to be. -/
inductive PatchCopy where
  | gone
  | changed
  | intact
deriving Repr, DecidableEq

/-- How a command ended, with what it wrote to stderr. -/
structure Exit where
  rc : Nat
  stderr : Bytes

inductive Query where
  | copyPatch
  | worktreeAdd (worktree : Worktree)
  | applyCheck
  | absArgv (suite : Suite)
  | runSandboxed (worktree : Worktree) (suite : Suite)
  | patchSha
  | applyVerify
  | diffSha
  | lsOthers
  | autofixEnabled
  | secretScan
  | showRef
  | applyPristine
  | checkoutBranch
  | addAll
  | commit
  | hooksPath
  | push
  | ghFound
  | prCreate
deriving Repr, DecidableEq

/-- A command that must succeed answers whether it did; a refused argument list answers why. -/
abbrev Answer : Query → Type
  | .copyPatch | .worktreeAdd _ | .applyCheck | .runSandboxed _ _ | .applyVerify => Bool
  | .absArgv _ => Option Bytes
  | .patchSha => PatchCopy
  | .diffSha => Option Bytes
  | .lsOthers => List Path
  | .autofixEnabled | .push | .ghFound | .prCreate => Bool
  | .secretScan | .showRef | .hooksPath => Nat
  | .applyPristine | .checkoutBranch | .addAll | .commit => Exit

abbrev ask (query : Query) : Program Query Answer (Answer query) :=
  Program.ask query

/-- The calls that put the patch into the history of the repository or of a remote. -/
def Query.publishes : Query → Bool
  | .commit | .push => true
  | _ => false

inductive Verdict where
  | noFix
  | unverified
  | tampered
  | suiteGreen
  | regressionCheckOnly
  | aborted
deriving Repr, DecidableEq

namespace Verdict

def name : Verdict → String
  | .noFix => "NO_FIX"
  | .unverified => "UNVERIFIED"
  | .tampered => "TAMPERED"
  | .suiteGreen => "SUITE_GREEN"
  | .regressionCheckOnly => "REGRESSION_CHECK_ONLY"
  | .aborted => "ABORTED"

def isGreen : Verdict → Bool
  | .suiteGreen | .regressionCheckOnly => true
  | _ => false

end Verdict

/-- How the diff goes into the delivered record. -/
inductive Diff where
  | left
  | withheld
  | shown
deriving Repr, DecidableEq

/-- What a run delivers. -/
structure Ending where
  verdict : Verdict
  reason : Bytes
  flags : Bytes
  diff : Diff

/-- A run that dies under `set -e` delivers nothing. -/
abbrev Run :=
  Program Query Answer (Option Ending)

/-- What a run is started with. -/
structure Settings where
  locale : Locale
  repoId : Bytes
  baseSha : Bytes
  play : Bytes
  -- The flags raised before the patch is there: the drift of the local git configuration.
  flags : Bytes
  verifyArgv : Bool
  buildArgv : Bool
  failToPassArgv : Bool
  fixTestMode : Bool
  fixRemote : Bytes
  fixBaseBranch : Bytes
  netTimeout : Nat

/-- What git says of a patch. -/
structure Git where
  summary : Patch → Bytes

-- Ending a run

/-- Deliver a verdict, with the diff if the patch is given and still the one that was hashed. -/
def finish (verdict : Verdict) (reason flags : Bytes) (withPatch : Bool) : Run :=
  if withPatch then do
    match ← ask .patchSha with
    | .gone => pure (some { verdict, reason, flags, diff := .left })
    | .changed =>
        let reason :=
          reason ++ say " (NOTE: patch hash changed before delivery — diff withheld)"
        pure (some { verdict, reason, flags, diff := .left })
    | .intact =>
        let scanned ← ask .secretScan
        if scanned = 0 then
          pure (some { verdict, reason, flags := flags ++ say " secrets-hit", diff := .withheld })
        else pure (some { verdict, reason, flags, diff := .shown })
  else pure (some { verdict, reason, flags, diff := .left })

def failClosed (reason flags : Bytes) : Run :=
  pure (some { verdict := .aborted, reason, flags, diff := .left })

-- The patch policy

/-- Why the summary of a patch is refused. -/
def summaryRefusal (summary : Bytes) : Option Bytes :=
  if grep (word "mode 120000") summary then
    some (say "patch policy: refuses symlink creation")
  else if grep (words ["mode 160000", "gitlink"]) summary then
    some (say "patch policy: refuses submodule/gitlink")
  else if grep (words ["mode change", "100755"]) summary then
    some (say "patch policy: refuses executable-bit change")
  else none

def isBinaryPatch (text : Bytes) : Bool :=
  grep (.seq .start (words ["GIT binary patch", "Binary files "])) text

/-- The loop over the listed names: why the patch is refused, or whether it touches the harness,
with the flags.
-/
def gate (locale : Locale) (tamper : Bool) (flags : Bytes)
    : List Bytes → Except Bytes (Bool × Bytes)
  | [] => .ok (tamper, flags)
  | path :: rest =>
      if path.isEmpty then gate locale tamper flags rest
      else if grep cntrl path then .error (say "patch policy: control char in path")
      else if grep DENY_RE path then .error (say "patch policy: refuses " ++ path)
      else if grep (TAMPER_RE locale) path then
        gate locale true (flags ++ say " touched:" ++ path) rest
      else gate locale tamper flags rest

-- The apply rung

def branch (settings : Settings) : Bytes :=
  say "fix/auto/" ++ settings.play

/-- A name that starts with a letter or a digit and goes on with at most 200 letters, digits, dots,
underscores, dashes and slashes, has no `..` and is not one of our own branches.
-/
def prBaseAllowed (base : Bytes) : Bool :=
  let isAlnum (byte : UInt8) : Bool :=
    (0x30 ≤ byte && byte ≤ 0x39) || (0x41 ≤ byte && byte ≤ 0x5a) || (0x61 ≤ byte && byte ≤ 0x7a)
  let isInner (byte : UInt8) : Bool := isAlnum byte || (ascii "._-/").contains byte
  match base with
  | [] => false
  | first :: rest =>
      isAlnum first && rest.all isInner && rest.length ≤ 200
        && !(word "..").search base && !(ascii "fix/auto/").isPrefixOf base

/-- `[[ "$r" == -* ]]` or a control character, as grep sees one. -/
def remoteMalformed (remote : Bytes) : Bool :=
  (ascii "-").isPrefixOf remote || grep cntrl remote

/-- Cut the user and the secret out of a URL: `${push_remote//:\/\/*@/://***@}`. -/
def remoteSafe (remote : Bytes) : Bytes :=
  let scheme := ascii "://"
  match (Place.all remote).find? (fun place => scheme.isPrefixOf place.after) with
  | none => remote
  | some place =>
      let rest := place.after.drop scheme.length
      if rest.contains 0x40 then
        place.before.reverse ++ ascii "://***@"
          ++ (rest.reverse.takeWhile (fun byte => decide (byte ≠ 0x40))).reverse
      else remote

/-- A failed command in a note: its exit code and the begin of its stderr. -/
def failure (exit : Exit) : Bytes :=
  say " (rc=" ++ sayNat exit.rc ++ say "): "
    ++ (exit.stderr.take 200).filter
        (fun byte => decide (0x20 ≤ byte ∧ byte ≠ 0x7f ∨ byte = tab ∨ byte = newline ∨ byte = 0x0d))

/-- Open the pull request of a pushed branch, and say so. -/
def openPr (settings : Settings) (note : Bytes) : Program Query Answer Bytes := do
  if settings.fixTestMode then pure note
  else if ← ask .ghFound then
    let base := settings.fixBaseBranch
    if prBaseAllowed base then
      if ← ask .prCreate then pure (note ++ say " PR opened against " ++ base ++ say ".")
      else
        pure (note ++ say " (gh pr create failed or timed out — open the PR by hand; base=" ++ base
          ++ say ")")
    else
      pure (note ++ say (" No PR opened: originating branch unknown/invalid — open by hand "
        ++ "against the right base."))
  else pure note

/-- Push the committed branch from the durable repository. -/
def publish (settings : Settings) (tier : Verdict) (flags : Bytes)
    : Program Query Answer (Bytes × Bytes) := do
  let branch := branch settings
  let flags := flags ++ say " applied-branch:" ++ branch
  let hooks ← ask .hooksPath
  if hooks ≠ 1 then
    let why :=
      if hooks = 0 then say "is set (tracked-hook execution risk)"
      else say "probe errored (rc=" ++ sayNat hooks ++ say ")"
    pure (flags, say "APPLIED locally as " ++ branch ++ say " — push withheld: core.hooksPath "
      ++ why ++ say "; push by hand after inspecting hooks")
  else
    let remote := if settings.fixRemote.isEmpty then ascii "origin" else settings.fixRemote
    if remoteMalformed remote then
      pure (flags, say "APPLIED locally as " ++ branch
        ++ say " — push withheld: MYNDAIX_FIX_REMOTE malformed; push by hand")
    else if ← ask .push then
      let note ← openPr settings (say "APPLIED + PUSHED as " ++ branch ++ say " ("
        ++ say tier.name ++ say ") to " ++ remoteSafe remote
        ++ say " — the push-review loop reviews it; merge stays gated.")
      pure (flags ++ say " pushed", note)
    else
      pure (flags, say "APPLIED locally as " ++ branch ++ say " — PUSH FAILED or timed out ("
        ++ sayNat settings.netTimeout ++ say "s); push by hand: git push " ++ remoteSafe remote
        ++ say " " ++ branch)

/-- Commit the patch in a pristine worktree. -/
def construct (settings : Settings) (tier : Verdict) (flags : Bytes)
    : Program Query Answer (Bytes × Bytes) := do
  let skipped (why : Bytes) := (flags, say "apply SKIPPED: " ++ why)
  if ← ask (.worktreeAdd .apply) then
    let applied ← ask .applyPristine
    if applied.rc ≠ 0 then
      pure (skipped (say "patch did not apply in the pristine worktree" ++ failure applied))
    else
      let checked ← ask .checkoutBranch
      if checked.rc ≠ 0 then
        pure (skipped (say "could not create " ++ branch settings ++ failure checked))
      else
        let added ← ask .addAll
        if added.rc ≠ 0 then pure (skipped (say "git add failed" ++ failure added))
        else
          let committed ← ask .commit
          if committed.rc ≠ 0 then pure (skipped (say "commit failed" ++ failure committed))
          else publish settings tier flags
  else pure (skipped (say "could not create apply worktree"))

/-- The apply rung: the flags and the note it leaves. -/
def applyMaybe (settings : Settings) (tier : Verdict) (flags : Bytes)
    : Program Query Answer (Bytes × Bytes) := do
  if ← ask .autofixEnabled then
    let scanned ← ask .secretScan
    if scanned ≠ 1 then
      let why :=
        if scanned = 0 then say "matched a signature"
        else say "errored (rc=" ++ sayNat scanned ++ say ")"
      pure (if scanned = 0 then flags ++ say " secrets-hit" else flags,
        say "apply SKIPPED: secret scan " ++ why ++ say " — nothing committed or pushed")
    else if (← ask .patchSha) ≠ .intact then
      pure (flags, say "apply SKIPPED: patch integrity check failed")
    else
      let shown ← ask .showRef
      if shown ≠ 1 then
        pure (flags, say "apply SKIPPED: branch exists or git probe error (rc=" ++ sayNat shown
          ++ say ")")
      else construct settings tier flags
  else pure (flags, say "apply not attempted: AUTOFIX_APPLY_ENABLED absent (rung disarmed)")

-- The run

/-- A run whose suites passed and whose patch touches nothing it must not. -/
def green (settings : Settings) (flags : Bytes) : Run := do
  let tier : Verdict := if settings.failToPassArgv then .regressionCheckOnly else .suiteGreen
  let (flags, note) ← applyMaybe settings tier flags
  let reason :=
    if settings.failToPassArgv then
      say ("verify suite + target test passed under a best-effort sandbox (a regression signal, "
        ++ "NOT a guarantee — review the diff before applying).")
    else
      say ("verify suite passed under a best-effort sandbox on the patched tree — a SUITE-LEVEL "
        ++ "signal only (no fail_to_pass proof that the bug existed).")
  finish tier (reason ++ say " " ++ note) flags true

/-- After the suites ran: what they did to the worktree, and what the patch did to the harness. -/
def integrity (settings : Settings) (tamper : Bool) (flags : Bytes) (appliedDiffSha : Bytes)
    : Run := do
  if (← ask .diffSha) ≠ some appliedDiffSha then
    finish .tampered
      (say ("tracked files were modified DURING test execution (runtime harness tampering) — "
        ++ "green is not trustworthy"))
      flags true
  else
    let others ← ask .lsOthers
    match others.find? (fun path => grep (.alt (TAMPER_RE settings.locale) DENY_RE) path.bytes) with
    | some path =>
        finish .tampered
          (say "a test/config file (" ++ path.bytes
            ++ say ") appeared DURING execution (runtime tampering)")
          flags true
    | none =>
        if tamper || (word "git-config-drift").search flags then
          finish .tampered
            (say ("verify passed, but the patch edits tests/config/manifests (or perturbed git "
              ++ "config) — the green result is NOT trustworthy; review the diff carefully"))
            flags true
        else green settings flags

/-- Run a configured suite on the patched worktree, or end as unverified. -/
def runSuite (suite : Suite) (why flags : Bytes) (next : Run) : Run := do
  if ← ask (.runSandboxed .verify suite) then next
  else finish .unverified why flags true

/-- The build, the suite and the target test, on the patched worktree. -/
def suites (settings : Settings) (tamper : Bool) (flags : Bytes) (appliedDiffSha : Bytes) : Run :=
  let tested :=
    if settings.failToPassArgv then
      runSuite .failToPass
        (say "fix did not make the target test pass (or the target test was removed)") flags
        (integrity settings tamper flags appliedDiffSha)
    else integrity settings tamper flags appliedDiffSha
  let verified :=
    runSuite .verify
      (say "regression: verify suite failed after applying the patch") flags tested
  if settings.buildArgv then do
    match ← ask (.absArgv .build) with
    | some why => failClosed why flags
    | none => runSuite .build (say "build failed after patch") flags verified
  else verified

/-- Apply the checked copy and run the suites. -/
def applied (settings : Settings) (tamper : Bool) (flags : Bytes) : Run := do
  if (← ask .patchSha) ≠ .intact then
    failClosed (say "patch copy changed (integrity)") flags
  else if ← ask .applyVerify then
    match ← ask .diffSha with
    | none => pure none
    | some appliedDiffSha => suites settings tamper flags appliedDiffSha
  else finish .unverified (say "patch failed to apply at verify time") flags true

/-- The target test must fail before the patch. -/
def precheck (flags : Bytes) (next : Run) : Run := do
  match ← ask (.absArgv .failToPass) with
  | some why => failClosed why flags
  | none =>
      if ← ask (.worktreeAdd .precheck) then
        if ← ask (.runSandboxed .precheck .failToPass) then
          finish .unverified
            (say "fail_to_pass already passes on the clean base (flake or no real bug)") flags true
        else next
      else failClosed (say "could not create precheck worktree") flags

def verify (settings : Settings) (tamper : Bool) (flags : Bytes) : Run :=
  if settings.verifyArgv then do
    match ← ask (.absArgv .verify) with
    | some why => failClosed why flags
    | none =>
        if settings.failToPassArgv then precheck flags (applied settings tamper flags)
        else applied settings tamper flags
  else
    finish .unverified
      (say "no verify command configured for " ++ settings.repoId
        ++ say " — cannot run a regression check; human review required")
      flags true

/-- The patch policy, before anything of the patch runs. -/
def patchPolicy (git : Git) (settings : Settings) (patch : Patch) : Run :=
  let flags := settings.flags
  match summaryRefusal (git.summary patch) with
  | some why => finish .unverified why flags false
  | none =>
      if isBinaryPatch patch.text then
        finish .unverified (say "patch policy: refuses binary patch") flags false
      else do
        if ← ask .applyCheck then
          match gate settings.locale false flags (gatePaths patch.numstat) with
          | .error why => finish .unverified why flags false
          | .ok (tamper, flags) => verify settings tamper flags
        else
          finish .unverified
            (say "patch does not apply to clean base " ++ settings.baseSha.take 8
              ++ say " (stale/wrong base)")
            flags false

/-- A run from the artifact on. -/
def playFix (git : Git) (settings : Settings) (patch : Patch) : Run :=
  if patch.text.isEmpty then
    finish .noFix (say "no patch artifact produced") settings.flags false
  else if 1048576 < patch.text.length then
    failClosed (say "patch artifact over 1MB — refusing") settings.flags
  else do
    if ← ask .copyPatch then
      if ← ask (.worktreeAdd .verify) then patchPolicy git settings patch
      else failClosed (say "could not create verify worktree") settings.flags
    else pure none

end Fix
