import Mathlib.Algebra.GroupWithZero.Nat
import Myndaix.Capture.Injection
import Myndaix.Text.Occurrences

/-! The skills that a review is shown: each body is checked, fenced with the run's nonce and counted
against a ceiling of bytes. What is checked is the body as it is stored; what is shown is the body
without its control characters.
-/

namespace Capture

open Inbox (isC0Del)
open Text (Straddles)

-- The selection

/-- `_clean(text)`. -/
def dropControls (text : Str) : Str :=
  text.filter (fun char => !isC0Del char)

def beginMarker (label nonce : Str) : Str :=
  "===BEGIN UNTRUSTED ".toList ++ label ++ " nonce=".toList ++ nonce ++ "===\n".toList

def endMarker (nonce : Str) : Str :=
  "\n===END UNTRUSTED nonce=".toList ++ nonce ++ "===\n".toList

/-- `_fence(label, body, nonce)`. -/
def fenceSkill (label body nonce : Str) : Str :=
  beginMarker label nonce ++ dropControls body ++ endMarker nonce

def SKILL_LABEL : Str :=
  "armed-skill".toList

section Select

variable (isWord : Char → Bool) (sha256 : Str → Str) (injectMaxBytes : Int) (nonce : Str)

end Select

-- Clean regions

variable {text : Str}

section Clean

variable (isWord : Char → Bool) (label nonce : Str)

variable {isWord : Char → Bool} {label nonce seen body region : Str}

end Clean

-- Emitted regions

section Emitted

variable {isWord : Char → Bool} {sha256 : Str → Str} {injectMaxBytes : Int} {nonce region : Str}
variable {skills : List Skill} {gathered : Selection}

end Emitted

end Capture
