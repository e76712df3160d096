import Myndaix.Corpus.Outline
import Myndaix.Text.Clipped

/-! The markers that `mxr` prints on standard error when a job has failed or is dead, and the two
programs that read them: the phone's wrapper and the fetch over SSH.
-/

namespace Cli

open Corpus (isLineEnd splitlines splitlinesFrom)
open Curate (Str)
open Outcomes (strip)
open Text

-- What is printed

inductive Marker where
  | syncTimeout
  | jobFailed
  | jobDead
  | noSuchJob
  | doneEmpty
  | deliveryErr
deriving DecidableEq, Repr

def Marker.line : Marker → Str
  | syncTimeout => "MXR_SYNC_TIMEOUT".toList
  | jobFailed => "MXR_JOB_FAILED".toList
  | jobDead => "MXR_JOB_DEAD".toList
  | noSuchJob => "MXR_NO_SUCH_JOB".toList
  | doneEmpty => "MXR_DONE_EMPTY".toList
  | deliveryErr => "MXR_DELIVERY_ERR".toList

def MARKERS : List Marker :=
  [.syncTimeout, .jobFailed, .jobDead, .noSuchJob, .doneEmpty, .deliveryErr]

def MXR : Str :=
  "MXR_".toList

/-- `_marker_safe`. -/
def markerSafe (text : Str) : Str :=
  ['\n'].intercalate
    ((splitlines text).map fun line => if MXR.isPrefixOf line then ' ' :: line else line)

/-- The statuses that end a job without a reply. -/
inductive Ending where
  | failed
  | dead
deriving DecidableEq, Repr

def Ending.status : Ending → Str
  | failed => "failed".toList
  | dead => "dead".toList

def Ending.marker : Ending → Marker
  | failed => .jobFailed
  | dead => .jobDead

structure Attempt where
  status : Str
  text : Option Str

/-- A digit of a UUID, or a hyphen in it. -/
def isIdChar (char : Char) : Bool :=
  char.isDigit || (0x61 ≤ char.toNat && char.toNat ≤ 0x66) || char = '-'

/-- A letter of the registry's names, or a hyphen in one. -/
def isNameChar (char : Char) : Bool :=
  char.isLower || char = '-'

/-- A job of a registered agent that has ended without a reply. -/
structure EndedJob where
  agent : Str
  id : Str
  ending : Ending
  attempts : List Attempt
  registered : ∀ char ∈ agent, isNameChar char
  uuid : ∀ char ∈ id, isIdChar char

/-- The text of the first failed attempt that has one. -/
def errorText (attempts : List Attempt) : Option Str :=
  attempts.findSome? fun attempt =>
    if attempt.status = Ending.failed.status then attempt.text.filter (· ≠ []) else none

/-- `print(text, file=sys.stderr)`. -/
def say (text : Str) : Str :=
  text ++ ['\n']

def jobIdLine (job : EndedJob) : Str :=
  "JOB_ID=".toList ++ job.id

/-- What `run_job` prints on standard error up to the marker. -/
def beforeMarker (job : EndedJob) : Str :=
  say ("-> ".toList ++ job.agent ++ "  (job ".toList ++ job.id.take 8 ++ ")".toList)
    ++ say (jobIdLine job)
    ++ match errorText job.attempts with
        | none => []
        | some text => say (markerSafe (strip text))

def closing (ending : Ending) : Str :=
  "(job ".toList ++ ending.status ++ ")".toList

/-- What it prints in all, before it returns the exit code 1. -/
def stderr (job : EndedJob) : Str :=
  beforeMarker job ++ say ("MXR_JOB_".toList ++ job.ending.status.map Char.toUpper)
    ++ say (closing job.ending)

def EXIT_CODE : Int := 1

-- The phone's wrapper

/-- The lines that `grep` sees. -/
def grepLines (bytes : Bytes) : List Bytes :=
  bytes.splitOn LF

def isIdByte (byte : UInt8) : Bool :=
  (0x30 ≤ byte && byte ≤ 0x39) || (0x61 ≤ byte && byte ≤ 0x66) || byte = 0x2D

def JOB_ID : Bytes :=
  utf8 "JOB_ID=".toList

/-- `grep -o 'JOB_ID=[0-9a-f-]*' | cut -d= -f2` on a line, its first match. -/
def jobIdIn : Bytes → Option Bytes
  | [] => none
  | byte :: rest =>
      if JOB_ID.isPrefixOf (byte :: rest) then
        some (((byte :: rest).drop JOB_ID.length).takeWhile isIdByte)
      else jobIdIn rest

/-- `_jid`. -/
def phoneJobId (stderr : Bytes) : Bytes :=
  ((grepLines stderr).findSome? jobIdIn).getD []

inductive PhoneAnswer where
  | reply
  | factoryError (code : Int) (tail : Bytes)
  | noAnswer
  | stillThinking (jobId : Bytes)
  | notRecorded
  | hiccup (jobId : Bytes)
deriving DecidableEq

/-- The branch that `ask` takes; `recorded` is what `jid_record` answers. -/
def phoneAsk (recorded : Bytes → Bool) (code : Int) (stderr : Bytes) : PhoneAnswer :=
  let jobId := phoneJobId stderr
  let sees := fun (marker : Marker) => decide (utf8 marker.line ∈ grepLines stderr)
  let error := PhoneAnswer.factoryError code (stderr.drop (stderr.length - 500))
  if code = 0 then .reply
  else if sees .jobFailed || sees .jobDead then error
  else if sees .doneEmpty then .noAnswer
  else if jobId ≠ [] && sees .syncTimeout then
    if recorded jobId then .stillThinking jobId else .notRecorded
  else if jobId ≠ [] && recorded jobId then .hiccup jobId
  else error

-- The fetch over SSH

def DRAIN_LIMIT : Nat := 32 * 1024

/-- The loop of `_drain` on what the stream's reads give, to its end or until it is cancelled. -/
def drainFrom (limit : Nat) (buffer : Bytes) : List Bytes → Bytes
  | [] => buffer
  | chunk :: chunks =>
      if chunk = [] then buffer
      else drainFrom limit (buffer ++ chunk.take (limit - buffer.length)) chunks

def drain (limit : Nat) (chunks : List Bytes) : Str :=
  characters (decodeReplacing (drainFrom limit [] chunks))

inductive DiscussError where
  | timeout
  | empty
  | failed
  | transportError
  | sshError
deriving DecidableEq, Repr

structure Fetched where
  jobId : Option Str
  /-- None where the reply is read from standard output. -/
  error : Option DiscussError
deriving DecidableEq

/-- What `_remote_fetch` reads from the lines of standard error and the exit code. -/
def remoteVerdict (timedOut : Bool) (code : Int) (stderr : Str) : Fetched :=
  let lines := splitlines stderr
  let jobId := (lines.find? "JOB_ID=".toList.isPrefixOf).map fun line => strip (line.drop 7)
  let sees := fun (marker : Marker) => lines.contains marker.line
  if timedOut then ⟨jobId, some .timeout⟩
  else if sees .doneEmpty then ⟨jobId, some .empty⟩
  else if sees .syncTimeout then ⟨jobId, some .timeout⟩
  else if sees .jobFailed || sees .jobDead then ⟨jobId, some .failed⟩
  else if code = 255 then ⟨jobId, some .transportError⟩
  else if code ≠ 0 then ⟨jobId, some .sshError⟩
  else ⟨jobId, none⟩

end Cli
