import Mathlib.Algebra.GroupWithZero.Nat
import Myndaix.Ledger.Binding

/-! The request models of the command API: which JSON bodies of `POST /inbound` and `POST /jobs`
pass validation.
-/

namespace Api

open Text (CodePoint Points points)

/-- A JSON value as Python holds it. A number is kept as its text; NaN and the infinities, which
the parser takes too, have none.
-/
inductive Value : Type where
  | null
  | bool (value : Bool)
  | number (text : Points)
  | nonFinite
  | text (text : Points)
  | array (items : List Value)
  | object (members : List (Points × Value))

-- json.dumps

def hexDigit (digit : Nat) : CodePoint :=
  if digit < 10 then Fin.ofNat _ (0x30 + digit) else Fin.ofNat _ (0x61 + (digit - 10))

/-- `\uXXXX`. -/
def escapeUnit (unit : Nat) : Points :=
  points "\\u"
  ++ [
    hexDigit (unit / 0x1000 % 16),
    hexDigit (unit / 0x100 % 16),
    hexDigit (unit / 0x10 % 16),
    hexDigit (unit % 16)
  ]

/-- One character of a string, as `json.dumps` writes it in ASCII. -/
def escapePoint (point : CodePoint) : Points :=
  if point = 0x22 then points "\\\""
  else if point = 0x5C then points "\\\\"
  else if point = 0x0A then points "\\n"
  else if point = 0x0D then points "\\r"
  else if point = 0x09 then points "\\t"
  else if point = 0x0C then points "\\f"
  else if point = 0x08 then points "\\b"
  else if 0x20 ≤ point.val ∧ point.val ≤ 0x7E then [point]
  else if point.val < 0x10000 then escapeUnit point.val
  else
    escapeUnit (0xD800 + (point.val - 0x10000) / 0x400 % 0x400)
    ++ escapeUnit (0xDC00 + (point.val - 0x10000) % 0x400)

def dumpsText (text : Points) : Points :=
  points "\"" ++ text.flatMap escapePoint ++ points "\""

mutual

/-- `json.dumps(value, allow_nan=False)`; `none` is the `ValueError`. -/
def Value.dumps : Value → Option Points
  | .null => some (points "null")
  | .bool value => some (points (if value then "true" else "false"))
  | .number text => some text
  | .nonFinite => none
  | .text text => some (dumpsText text)
  | .array items =>
      (dumpsItems items).map
        (fun parts => points "[" ++ (points ", ").intercalate parts ++ points "]")
  | .object members =>
      (dumpsMembers members).map
        (fun parts => points "\x7b" ++ (points ", ").intercalate parts ++ points "\x7d")

def dumpsItems : List Value → Option (List Points)
  | [] => some []
  | item :: items =>
      match item.dumps, dumpsItems items with
      | some part, some parts => some (part :: parts)
      | _, _ => none

def dumpsMembers : List (Points × Value) → Option (List Points)
  | [] => some []
  | (key, value) :: members =>
      match value.dumps, dumpsMembers members with
      | some part, some parts => some ((dumpsText key ++ points ": " ++ part) :: parts)
      | _, _ => none

end

-- The strings of a value

mutual

/-- Every string in a value, keys among them. -/
def Value.strings : Value → List Points
  | .text text => [text]
  | .array items => stringsOfItems items
  | .object members => stringsOfMembers members
  | _ => []

def stringsOfItems : List Value → List Points
  | [] => []
  | item :: items => item.strings ++ stringsOfItems items

def stringsOfMembers : List (Points × Value) → List Points
  | [] => []
  | (key, value) :: members => key :: (value.strings ++ stringsOfMembers members)

end

mutual

/-- How often `_has_nul` pops until the value is gone. -/
def Value.pops : Value → Nat
  | .array items => 1 + popsOfItems items
  | .object members => 1 + popsOfMembers members
  | _ => 1

def popsOfItems : List Value → Nat
  | [] => 0
  | item :: items => item.pops + popsOfItems items

def popsOfMembers : List (Points × Value) → Nat
  | [] => 0
  | (_, value) :: members => 1 + value.pops + popsOfMembers members

end

/-- What a popped value pushes, the last one first. -/
def Value.pushed : Value → List Value
  | .array items => items.reverse
  | .object members => (members.flatMap (fun (key, value) => [.text key, value])).reverse
  | _ => []

/-- The loop of `_has_nul`; `stack` begins with its top. -/
def scanStack : Nat → List Value → Bool
  | _, [] => false
  | 0, _ => false
  | pops + 1, current :: stack =>
      match current with
      | .text text => if 0 ∈ text then true else scanStack pops stack
      | other => scanStack pops (other.pushed ++ stack)

/-- `_has_nul`. -/
def hasNul (value : Value) : Bool :=
  scanStack value.pops [value]

section Scan

variable {value : Value} {text : Points}

theorem mem_stringsOfItems {items : List Value}
    : text ∈ stringsOfItems items ↔ ∃ item ∈ items, text ∈ item.strings := by
  induction items with
  | nil => simp [stringsOfItems]
  | cons item items induction => simp [stringsOfItems, induction]

theorem mem_stringsOfMembers {members : List (Points × Value)}
    : text ∈ stringsOfMembers members
      ↔ ∃ mem ∈ members, text = mem.1 ∨ text ∈ mem.2.strings := by
  induction members with
  | nil => simp [stringsOfMembers]
  | cons mem members induction =>
      simp [stringsOfMembers, induction, or_assoc]

theorem popsOfItems_eq (items : List Value) : popsOfItems items = (items.map Value.pops).sum := by
  induction items with
  | nil => rfl
  | cons item items induction => rw [popsOfItems, induction, List.map_cons, List.sum_cons]

theorem popsOfMembers_eq (members : List (Points × Value))
    : popsOfMembers members
      = ((members.flatMap (fun (key, value) => [Value.text key, value])).map Value.pops).sum := by
  induction members with
  | nil => rfl
  | cons mem members induction =>
      rw [popsOfMembers, induction]
      simp [Value.pops, Nat.add_assoc]

/-- A value costs one pop more than what it pushes. -/
theorem pops_pushed (value : Value)
    : 1 + (value.pushed.map Value.pops).sum = value.pops := by
  cases value with
  | array items => rw [Value.pushed, Value.pops, popsOfItems_eq, List.map_reverse, List.sum_reverse]
  | object members =>
      rw [Value.pushed, Value.pops, popsOfMembers_eq, List.map_reverse, List.sum_reverse]
  | _ => rfl

/-- Popping a value loses no string but the value itself. -/
theorem mem_strings
    : text ∈ value.strings
      ↔ value = .text text ∨ ∃ inner ∈ value.pushed, text ∈ inner.strings := by
  cases value with
  | text other => simp [Value.strings, Value.pushed, eq_comm]
  | array items => simp [Value.strings, Value.pushed, mem_stringsOfItems]
  | object members =>
      rw [Value.strings, mem_stringsOfMembers]
      simp only [Value.pushed, List.mem_reverse, List.mem_flatMap, reduceCtorEq, false_or]
      constructor
      · intro found
        obtain ⟨mem, inside, either⟩ := found
        rcases either with same | deeper
        · exact ⟨.text mem.1, ⟨mem, inside, by simp⟩, by simp [Value.strings, same]⟩
        · exact ⟨mem.2, ⟨mem, inside, by simp⟩, deeper⟩
      · intro found
        obtain ⟨inner, ⟨mem, inside, either⟩, deeper⟩ := found
        refine ⟨mem, inside, ?_⟩
        rcases List.mem_cons.mp either with rfl | either
        · exact .inl (List.mem_singleton.mp deeper)
        · exact .inr (List.mem_singleton.mp either ▸ deeper)
  | _ => simp [Value.strings, Value.pushed]

/-- A string somewhere in the value has a NUL. -/
def Value.ContainsNul (value : Value) : Prop :=
  ∃ text ∈ value.strings, 0 ∈ text

/-- A text contains a NUL itself. -/
theorem containsNul_text : (Value.text text).ContainsNul ↔ 0 ∈ text := by
  simp [Value.ContainsNul, Value.strings]

/-- A compound value contains the NULs of what it pushes. -/
theorem containsNul_pushed (compound : ∀ text, value ≠ .text text)
    : value.ContainsNul ↔ ∃ inner ∈ value.pushed, inner.ContainsNul := by
  constructor
  · intro found
    obtain ⟨text, inside, nul⟩ := found
    rcases mem_strings.mp inside with same | ⟨inner, pushed, deeper⟩
    · exact absurd same (compound text)
    · exact ⟨inner, pushed, text, deeper, nul⟩
  · intro found
    obtain ⟨inner, pushed, text, deeper, nul⟩ := found
    exact ⟨text, mem_strings.mpr (.inr ⟨inner, pushed, deeper⟩), nul⟩

/-- A compound value is replaced by what it pushes. -/
theorem scanStack_compound (compound : ∀ text, value ≠ .text text) (pops : Nat)
    (stack : List Value)
    : scanStack (pops + 1) (value :: stack) = scanStack pops (value.pushed ++ stack) := by
  cases value with
  | text text => exact absurd rfl (compound text)
  | _ => rfl

/-- The loop, started with pops enough, finds a NUL exactly if a string on its stack has one; by
induction on the pops.
-/
theorem scanStack_iff {pops : Nat} {stack : List Value}
    (enough : (stack.map Value.pops).sum ≤ pops)
    : scanStack pops stack = true ↔ ∃ value ∈ stack, value.ContainsNul := by
  induction pops generalizing stack with
  | zero =>
      cases stack with
      | nil => simp [scanStack]
      | cons current stack =>
          have popped := pops_pushed current
          rw [List.map_cons, List.sum_cons] at enough
          omega
  | succ pops induction =>
      cases stack with
      | nil => simp [scanStack]
      | cons current stack =>
          have popped := pops_pushed current
          rw [List.map_cons, List.sum_cons] at enough
          rw [List.exists_mem_cons_iff]
          by_cases simple : ∃ text, current = .text text
          · obtain ⟨text, rfl⟩ := simple
            have rest := @induction stack (by omega)
            rw [containsNul_text]
            by_cases nul : 0 ∈ text
            · simp [scanStack, nul]
            · simp [scanStack, nul, rest]
          · have compound : ∀ text, current ≠ .text text := fun text same => simple ⟨text, same⟩
            rw [scanStack_compound compound, containsNul_pushed compound, induction]
            · simp only [List.mem_append, or_and_right, exists_or]
            · rw [List.map_append, List.sum_append]
              omega

/-- The scan finds a NUL exactly if there is one. -/
theorem hasNul_iff : hasNul value = true ↔ value.ContainsNul := by
  rw [hasNul, scanStack_iff (by simp)]
  simp

end Scan

-- The models

def maxBody : Nat := 100000

def maxContext : Nat := 20000

/-- What is left to libraries: which texts pydantic reads in a field with bounds, and how deep a
value `json.dumps` can descend.
-/
structure Libraries where
  readable : Points → Bool
  descends : Value → Bool

/-- The value of a field, if the body has it. -/
def field (body : Value) (name : String) : Option Value :=
  match body with
  | .object members => (members.find? (fun mem => mem.1 = points name)).map Prod.snd
  | _ => none

/-- `_no_nul`. -/
def noNul (text : Points) : Option Points :=
  if 0 ∈ text then none else some text

section Models

variable (libraries : Libraries)

/-- A field of type `str` with bounds for its length. -/
def bounded (least most : Nat) : Value → Option Points
  | .text text =>
      if libraries.readable text ∧ least ≤ text.length ∧ text.length ≤ most then some text
      else none
  | _ => none

/-- A field that has to be there. -/
def required (body : Value) (name : String) (least most : Nat) : Option Points :=
  (field body name).bind (fun value => (bounded libraries least most value).bind noNul)

/-- A field with a default. -/
def defaulted (body : Value) (name default : String) (most : Nat) : Option Points :=
  match field body name with
  | none => some (points default)
  | some value => (bounded libraries 0 most value).bind noNul

/-- A field of type `Optional[str]`. -/
def optional (body : Value) (name : String) (most : Nat) : Option (Option Points) :=
  match field body name with
  | none | some .null => some none
  | some value => (bounded libraries 0 most value).map some

/-- A transport-originated message. -/
structure InboundIn where
  senderId : Points
  dedupeKey : Points
  body : Points
  toAgent : Points
  transport : Points
  account : Points
  replyTarget : Option Points
deriving DecidableEq

/-- The validators cover every text but the reply target. -/
def InboundIn.validate (body : Value) : Option InboundIn := do
  let senderId ← required libraries body "sender_id" 1 200
  let dedupeKey ← required libraries body "dedupe_key" 1 200
  let text ← required libraries body "body" 1 maxBody
  let toAgent ← required libraries body "to_agent" 1 100
  let transport ← defaulted libraries body "transport" "http" 50
  let account ← defaulted libraries body "account" "default" 100
  let replyTarget ← optional libraries body "reply_target" 200
  pure { senderId, dedupeKey, body := text, toAgent, transport, account, replyTarget }

/-- A direct submission. -/
structure SubmitIn where
  toAgent : Points
  prompt : Points
  context : Value
  repoId : Option Points
  baseRef : Option Points

/-- `_bound_context`. -/
def boundContext (context : Value) : Option Value :=
  if libraries.descends context then
    match context.dumps with
    | none => none
    | some serialized =>
        if maxContext < serialized.length then none
        else if hasNul context then none
        else some context
  else none

/-- The field `context: dict[str, Any]`. -/
def contextOf (body : Value) : Option Value :=
  match field body "context" with
  | none => some (.object [])
  | some (.object members) => boundContext libraries (.object members)
  | some _ => none

/-- The scope's texts, `None` let through. -/
def noNulScope : Option Points → Option (Option Points)
  | none => some none
  | some text => (noNul text).map some

def SubmitIn.validate (body : Value) : Option SubmitIn := do
  let toAgent ← required libraries body "to_agent" 1 100
  let prompt ← required libraries body "prompt" 1 maxBody
  let context ← contextOf libraries body
  let repoId ← (optional libraries body "repo_id" 200).bind noNulScope
  let baseRef ← (optional libraries body "base_ref" 200).bind noNulScope
  pure { toAgent, prompt, context, repoId, baseRef }

section Accepted

variable {libraries} {body : Value} {text : Points}

/-- A text that passes the check has no NUL. -/
theorem zero_not_mem_of_noNul {given : Points} (passed : noNul given = some text) : 0 ∉ text := by
  unfold noNul at passed
  split at passed
  · cases passed
  · cases passed
    assumption

/-- Nor has a required field that passes. -/
theorem required_noNul {name : String} {least most : Nat}
    (passed : required libraries body name least most = some text)
    : 0 ∉ text := by
  obtain ⟨value, -, passed⟩ := Option.bind_eq_some_iff.mp passed
  obtain ⟨given, -, passed⟩ := Option.bind_eq_some_iff.mp passed
  exact zero_not_mem_of_noNul passed

/-- Nor has one with a clean default. -/
theorem defaulted_noNul {name default : String} {most : Nat} (clean : 0 ∉ points default)
    (passed : defaulted libraries body name default most = some text)
    : 0 ∉ text := by
  unfold defaulted at passed
  split at passed
  · cases passed
    exact clean
  · obtain ⟨given, -, passed⟩ := Option.bind_eq_some_iff.mp passed
    exact zero_not_mem_of_noNul passed

/-- What the validators promise of a message. -/
structure InboundIn.NoNul (message : InboundIn) : Prop where
  senderId : 0 ∉ message.senderId
  dedupeKey : 0 ∉ message.dedupeKey
  toAgent : 0 ∉ message.toAgent
  transport : 0 ∉ message.transport
  account : 0 ∉ message.account

/-- A validated message has no NUL in the fields that are checked. -/
theorem InboundIn.validate_noNul {message : InboundIn}
    (accepted : InboundIn.validate libraries body = some message)
    : message.NoNul := by
  unfold InboundIn.validate at accepted
  obtain ⟨senderId, sender, accepted⟩ := Option.bind_eq_some_iff.mp accepted
  obtain ⟨dedupeKey, dedupe, accepted⟩ := Option.bind_eq_some_iff.mp accepted
  obtain ⟨text, -, accepted⟩ := Option.bind_eq_some_iff.mp accepted
  obtain ⟨toAgent, agent, accepted⟩ := Option.bind_eq_some_iff.mp accepted
  obtain ⟨transport, carrier, accepted⟩ := Option.bind_eq_some_iff.mp accepted
  obtain ⟨account, owner, accepted⟩ := Option.bind_eq_some_iff.mp accepted
  obtain ⟨replyTarget, -, accepted⟩ := Option.bind_eq_some_iff.mp accepted
  cases accepted
  exact {
    senderId := required_noNul sender
    dedupeKey := required_noNul dedupe
    toAgent := required_noNul agent
    transport := defaulted_noNul (by decide +kernel) carrier
    account := defaulted_noNul (by decide +kernel) owner
  }

/-- And of a submission. -/
structure SubmitIn.NoNul (request : SubmitIn) : Prop where
  toAgent : 0 ∉ request.toAgent
  context : ∀ text ∈ request.context.strings, 0 ∉ text
  repoId : ∀ text ∈ request.repoId, 0 ∉ text
  baseRef : ∀ text ∈ request.baseRef, 0 ∉ text

/-- A validated context has none, its keys included. -/
theorem contextOf_noNul {context : Value} (passed : contextOf libraries body = some context)
    : ∀ text ∈ context.strings, 0 ∉ text := by
  unfold contextOf at passed
  split at passed
  · cases passed
    exact nofun
  · rename_i members _
    unfold boundContext at passed
    split at passed
    · split at passed
      · cases passed
      · split at passed
        · cases passed
        · split at passed
          · cases passed
          · rename_i clean
            cases passed
            exact fun text mem nul => clean (hasNul_iff.mpr ⟨text, mem, nul⟩)
    · cases passed
  · cases passed

/-- A validated scope has none. -/
theorem noNulScope_noNul {given scope : Option Points} (passed : noNulScope given = some scope)
    : ∀ text ∈ scope, 0 ∉ text := by
  cases given with
  | none =>
      cases passed
      exact nofun
  | some text =>
      obtain ⟨clean, checked, rfl⟩ := Option.map_eq_some_iff.mp passed
      intro other mem
      cases mem
      exact zero_not_mem_of_noNul checked

/-- A validated submission has none. -/
theorem SubmitIn.validate_noNul {request : SubmitIn}
    (accepted : SubmitIn.validate libraries body = some request)
    : request.NoNul := by
  unfold SubmitIn.validate at accepted
  obtain ⟨toAgent, agent, accepted⟩ := Option.bind_eq_some_iff.mp accepted
  obtain ⟨prompt, -, accepted⟩ := Option.bind_eq_some_iff.mp accepted
  obtain ⟨context, free, accepted⟩ := Option.bind_eq_some_iff.mp accepted
  obtain ⟨repoId, repo, accepted⟩ := Option.bind_eq_some_iff.mp accepted
  obtain ⟨baseRef, base, accepted⟩ := Option.bind_eq_some_iff.mp accepted
  obtain ⟨_, -, repo⟩ := Option.bind_eq_some_iff.mp repo
  obtain ⟨_, -, base⟩ := Option.bind_eq_some_iff.mp base
  cases accepted
  exact {
    toAgent := required_noNul agent
    context := contextOf_noNul free
    repoId := noNulScope_noNul repo
    baseRef := noNulScope_noNul base
  }

end Accepted

end Models

end Api
