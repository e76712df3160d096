import Myndaix.Text.Framed

/-! The end of a run of the liveness canary: the streak of divergent runs, and the latch of the keys
whose alert the operator has. Both are files, and the keys are framed by line feeds.
-/

namespace Canary

open Text

abbrev Str :=
  List Char

/-- The identity of a divergence: a label, or a name for what has no label. -/
structure Key where
  text : Str
  nonempty : text ≠ []
  oneLine : '\n' ∉ text
deriving DecidableEq

-- Divergences

/-- `div`, `div_n` and `div_keys`. -/
structure Divergences where
  div : Str
  count : Nat
  keys : Str
deriving DecidableEq, Repr

def Divergences.none : Divergences where
  div := []
  count := 0
  keys := ['\n']

/-- `${keys}${key}` with a line feed behind it. -/
def addKey (keys key : Str) : Str :=
  keys ++ key ++ ['\n']

def diverge (divergences : Divergences) (key : Key) (message : Str) : Divergences where
  div := divergences.div ++ "- ".toList ++ message ++ ['\n']
  count := divergences.count + 1
  keys :=
    if framedIn '\n' key.text divergences.keys then divergences.keys
    else addKey divergences.keys key.text

/-- The divergences of a run, in the order in which they were found. -/
def divergences (found : List (Key × Str)) : Divergences :=
  found.foldl (fun divergences (key, message) => diverge divergences key message) .none

-- Streak, latch and alert

/-- A run: what it finds, whether there is an operator inbox, and whether an alert can be written
there. A run that is skipped for sleep/wake grace does nothing and is left out.
-/
structure Tick where
  found : List (Key × Str)
  inbox : Bool
  written : Bool
deriving DecidableEq

def THRESHOLD : Nat := 2

/-- The streak file and the latch file. -/
structure Files where
  streak : Option Nat
  alerted : Option Str
deriving DecidableEq, Repr

def Files.none : Files where
  streak := Option.none
  alerted := Option.none

structure Alert where
  streak : Nat
  newKeys : List Str
  div : Str
deriving DecidableEq, Repr

def Alert.message (alert : Alert) : Str :=
  "liveness-canary: declared-vs-runtime divergence (".toList ++ (toString alert.streak).toList
    ++ " checks; new: ".toList ++ alert.newKeys.flatMap (· ++ [' '])
    ++ "). Jobs declared in substrate/plists/ are not executing as declared:\n\n".toList
    ++ alert.div

/-- The alert that a run wants to drop, and whether it did. -/
structure Outcome where
  streak : Nat
  attempt : Option Alert
  delivered : Bool
deriving DecidableEq, Repr

/-- The loop over the lines of the latch file. -/
def loadAlerted (file : Option Str) : Str :=
  match file with
  | none => ['\n']
  | some text =>
      (records '\n' text).foldl
      (fun alerted key => if key = [] then alerted else addKey alerted key)
        ['\n']

/-- The body of the loop over the keys of the run: the new ones, and the union to be persisted. -/
def unite (state : List Str × Str) (key : Str) : List Str × Str :=
  if key = [] ∨ framedIn '\n' key state.2 then state
  else (state.1 ++ [key], addKey state.2 key)

/-- A here-string ends the text by one more line feed. -/
def newAndUnion (alerted divKeys : Str) : List Str × Str :=
  (records '\n' (divKeys ++ ['\n'])).foldl unite ([], alerted)

def runTick (files : Files) (tick : Tick) : Files × Outcome :=
  let divergences := divergences tick.found
  if divergences.count = 0 then (.none, { streak := 0, attempt := none, delivered := false })
  else
    let streak := files.streak.getD 0 + 1
    let files := { files with streak := some streak }
    let (newKeys, union) := newAndUnion (loadAlerted files.alerted) divergences.keys
    if THRESHOLD ≤ streak ∧ newKeys ≠ [] then
      let attempt := some { streak, newKeys, div := divergences.div }
      if tick.inbox && tick.written then
        ({ files with alerted := some union }, { streak, attempt, delivered := true })
      else (files, { streak, attempt, delivered := false })
    else (files, { streak, attempt := none, delivered := false })

/-- A run with what it came to. -/
structure Step where
  tick : Tick
  outcome : Outcome
deriving DecidableEq

/-- Run after run, from the files that the one before has left. -/
def steps (files : Files) : List Tick → List Step
  | [] => []
  | tick :: ticks =>
      let ran := runTick files tick
      ⟨tick, ran.2⟩ :: steps ran.1 ticks

-- What the operator knows

def Step.clean (step : Step) : Bool :=
  step.tick.found.isEmpty

/-- The keys of the run. -/
def Step.keys (step : Step) : List Str :=
  step.tick.found.map (fun (key, _) => key.text)

/-- The keys that the run wants to announce as new. -/
def Step.attempted (step : Step) : List Str :=
  match step.outcome.attempt with
  | none => []
  | some alert => alert.newKeys

/-- The keys that it does announce. -/
def Step.announced (step : Step) : List Str :=
  if step.outcome.delivered then step.attempted else []

/-- The keys announced in the alerts that were delivered since the last clean run. -/
def announcedSince (history : List Step) : List Str :=
  history.foldl (fun known step => if step.clean then [] else known ++ step.announced) []

end Canary
