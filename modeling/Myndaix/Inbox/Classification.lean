import Mathlib.Data.Finset.Card
import Myndaix.Inbox.Board
import Myndaix.Runner.Higgsfield

/-! What the classifier has answered. Its output is scanned for JSON arrays; the one with the most
valid rows is the answer, unless the scan ran out of budget.
-/

namespace Inbox

open Runner (Json Python)

-- Rows

/-- A member of `_CATEGORIES`, by its text. -/
def readCategory : Json → Option Category
  | .string "job-reply" => some .jobReply
  | .string "waiting-on-me" => some .waitingOnMe
  | .string "needs-you" => some .needsYou
  | .string "fyi" => some .fyi
  | .string "noise" => some .noise
  | _ => none

theorem readCategory_known {value : Json} {category : Category}
    (read : readCategory value = some category)
    : category ∈ CATEGORIES := by
  unfold readCategory at read
  split at read <;> cases read <;> decide

/-- Values that Python takes for true. -/
def isTruthy (python : Python) : Json → Bool
  | .null => false
  | .bool value => value
  | .number literal => !python.isZero literal
  | .string value => value ≠ ""
  | .array items => !items.isEmpty
  | .object fields => !fields.isEmpty

/-- `str(value or "")`. -/
def strOrEmpty (python : Python) (value : Json) : Str :=
  if isTruthy python value then (python.str value).toList else []

/-- A strict boolean. -/
def isTrue : Json → Bool
  | .bool value => value
  | _ => false

/-- Thread ids with their rows, in the order of the array. -/
abbrev Rows : Type :=
  List (Str × Row)

section Parsing

variable (unicode : Unicode) (python : Python) (known : Finset Str)

/-- A value of the array: a row for an id that was sent and has none yet, or nothing. -/
def validateRow (rows : Rows) : Json → Rows
  | .object fields =>
      match Json.get fields "thread_id", read : readCategory (Json.get fields "category") with
      | .string tid, some category =>
          if tid.toList ∈ known && !rows.any (fun row => row.1 = tid.toList) then
            let row : Row :=
              {
                category := category
                known := readCategory_known read
                reason := (oneLine unicode (strOrEmpty python (Json.get fields "reason"))).take 120
                draftWorthy := isTrue (Json.get fields "draft_worthy")
                draftHint :=
                  (oneLine unicode (strOrEmpty python (Json.get fields "draft_hint"))).take 200
              }
            rows ++ [(tid.toList, row)]
          else rows
      | _, _ => rows
  | _ => rows

def validateRows (data : List Json) : Rows :=
  data.foldl (validateRow unicode python known) []

-- The scan

def SCAN_BUDGET : Nat := 2000

def CANDIDATE_BUDGET : Nat := 50

/-- `raw.find("[", pos)`. -/
def findBracket (raw : Str) (pos : Nat) : Option Nat :=
  ((raw.drop pos).findIdx? (fun char => char = '[')).map (· + pos)

/-- How the loop ends: with a row for every known id, or with the best array so far and the brackets
and arrays that it has counted.
-/
inductive Scan where
  | complete (rows : Rows)
  | stopped (best : Option Rows) (scanned candidates : Nat)

/-- `JSONDecoder.raw_decode`: the value that begins at a place, and the place behind it. None for an
error, be it that the text is no JSON or that it is nested too deeply.
-/
abbrev RawDecode : Type :=
  Str → Nat → Option (Json × Nat)

variable (rawDecode : RawDecode) (raw : Str)

/-- The array at a place: its valid rows and the place behind it. -/
def arrayAt (i : Nat) : Option (Rows × Nat) :=
  match rawDecode raw i with
  | some (.array cand, stop) => some (validateRows unicode python known cand, stop)
  | _ => none

/-- The loop of `parse_classification`, with what is left of the budget of brackets. -/
def scanLoop : Nat → Nat → Nat → Option Rows → Scan
  | 0, _, candidates, best => .stopped best SCAN_BUDGET candidates
  | left + 1, pos, candidates, best =>
      if candidates < CANDIDATE_BUDGET then
        match findBracket raw pos with
        | none => .stopped best (SCAN_BUDGET - (left + 1)) candidates
        | some i =>
            match arrayAt unicode python known rawDecode raw i with
            | none => scanLoop left (i + 1) candidates best
            | some (rows, stop) =>
                -- An array without valid rows is scanned inside; any other is passed whole.
                if rows.isEmpty then scanLoop left (i + 1) (candidates + 1) best
                else if best.all (fun best => best.length < rows.length) then
                  if rows.length = known.card then .complete rows
                  else scanLoop left (max stop (i + 1)) (candidates + 1) (some rows)
                else scanLoop left (max stop (i + 1)) (candidates + 1) best
      else .stopped best (SCAN_BUDGET - (left + 1)) candidates

def parseClassification : Option Rows :=
  match scanLoop unicode python known rawDecode raw SCAN_BUDGET 0 0 none with
  | .complete rows => some rows
  | .stopped best scanned candidates =>
      if SCAN_BUDGET ≤ scanned || CANDIDATE_BUDGET ≤ candidates then none else best

end Parsing

-- Valid rows

section Validity

variable {unicode : Unicode} {python : Python} {known : Finset Str} {rows : Rows} {value : Json}
  {data : List Json}

/-- Rows of distinct known ids; a row's class is valid by its type. -/
structure Rows.Valid (known : Finset Str) (rows : Rows) : Prop where
  known : ∀ row ∈ rows, row.1 ∈ known
  distinct : (rows.map Prod.fst).Nodup

theorem Rows.Valid.length_le (valid : rows.Valid known) : rows.length ≤ known.card := by
  have inside : (rows.map Prod.fst).toFinset ⊆ known := by
    intro id mem
    obtain ⟨row, among, rfl⟩ := List.mem_map.mp (List.mem_toFinset.mp mem)
    exact valid.known row among
  have counted := Finset.card_le_card inside
  rwa [List.toFinset_card_of_nodup valid.distinct, List.length_map] at counted

theorem validateRow_valid (valid : rows.Valid known)
    : (validateRow unicode python known rows value).Valid known := by
  unfold validateRow
  split
  · split
    · split
      · rename_i tid _ _ _ accepted
        obtain ⟨isKnown, fresh⟩ := Bool.and_eq_true_iff.mp accepted
        have absent : ∀ row ∈ rows, row.1 ≠ tid.toList := by
          intro row among same
          rw [Bool.not_eq_true', List.any_eq_false] at fresh
          exact fresh row among (decide_eq_true same)
        refine ⟨fun row mem => ?_, ?_⟩
        · rcases List.mem_append.mp mem with earlier | added
          · exact valid.known row earlier
          · rw [List.mem_singleton.mp added]
            exact of_decide_eq_true isKnown
        · rw [List.map_append]
          refine List.nodup_append.mpr ⟨valid.distinct, List.nodup_singleton _, ?_⟩
          intro id mem other added same
          obtain ⟨row, among, rfl⟩ := List.mem_map.mp mem
          exact absent row among (same.trans (List.mem_singleton.mp added))
      · exact valid
    · exact valid
  · exact valid

theorem validateRows_valid : (validateRows unicode python known data).Valid known := by
  have start : Rows.Valid known [] :=
    ⟨fun row mem => absurd mem List.not_mem_nil, List.nodup_nil⟩
  unfold validateRows
  generalize ([] : Rows) = rows at start
  induction data generalizing rows with
  | nil => exact start
  | cons value rest ih => exact ih _ (validateRow_valid start)

end Validity

-- The best array

section Best

variable (unicode : Unicode) (python : Python) (known : Finset Str) (rawDecode : RawDecode)
  (raw : Str)

/-- A bracket with a decodable array behind it, which has these valid rows. -/
def IsCandidate (i : Nat) (rows : Rows) (stop : Nat) : Prop :=
  raw[i]? = some '[' ∧ arrayAt unicode python known rawDecode raw i = some (rows, stop)

/-- The bracket stands inside no array with a valid row that begins before it. -/
def IsTopLevel (i : Nat) : Prop :=
  ∀ j rows stop,
    j < i → IsCandidate unicode python known rawDecode raw j rows stop → rows ≠ [] → stop ≤ i

/-- The best array has at least as many rows as every candidate before a place. -/
def Leads (pos : Nat) (best : Option Rows) : Prop :=
  ∀ i rows stop,
    i < pos
    → IsCandidate unicode python known rawDecode raw i rows stop
    → IsTopLevel unicode python known rawDecode raw i
    → rows.length ≤ (best.elim 0 List.length)

variable {unicode python known rawDecode raw} {pos i stop left candidates scanned : Nat}
  {rows : Rows} {best : Option Rows}

theorem findBracket_some (found : findBracket raw pos = some i)
    : pos ≤ i ∧ ∀ j, pos ≤ j → j < i → raw[j]? ≠ some '[' := by
  unfold findBracket at found
  obtain ⟨offset, isOffset, rfl⟩ := Option.map_eq_some_iff.mp found
  obtain ⟨_, _, before⟩ := List.findIdx?_eq_some_iff_getElem.mp isOffset
  refine ⟨Nat.le_add_left _ _, fun j atLeast less bracket => ?_⟩
  obtain ⟨inside, isBracket⟩ := List.getElem?_eq_some_iff.mp bracket
  have earlier := before (j - pos) (by omega)
  rw [List.getElem_drop] at earlier
  simp only [Nat.add_sub_cancel' atLeast, isBracket] at earlier
  exact earlier (by decide)

theorem findBracket_bracket (found : findBracket raw pos = some i) : raw[i]? = some '[' := by
  unfold findBracket at found
  obtain ⟨offset, isOffset, rfl⟩ := Option.map_eq_some_iff.mp found
  obtain ⟨inside, bracket, _⟩ := List.findIdx?_eq_some_iff_getElem.mp isOffset
  rw [List.getElem_drop, decide_eq_true_eq] at bracket
  rw [Nat.add_comm, ← bracket]
  exact List.getElem?_eq_getElem _

theorem findBracket_none (absent : findBracket raw pos = none) (atLeast : pos ≤ i)
    : raw[i]? ≠ some '[' := by
  intro bracket
  unfold findBracket at absent
  rw [Option.map_eq_none_iff, List.findIdx?_eq_none_iff] at absent
  obtain ⟨inside, isBracket⟩ := List.getElem?_eq_some_iff.mp bracket
  have mem : raw[i] ∈ raw.drop pos := by
    refine List.mem_iff_getElem?.mpr ⟨i - pos, ?_⟩
    rw [List.getElem?_drop, Nat.add_sub_cancel' atLeast]
    exact List.getElem?_eq_getElem inside
  have refused := absent _ mem
  rw [isBracket] at refused
  cases refused

theorem IsCandidate.valid (candidate : IsCandidate unicode python known rawDecode raw i rows stop)
    : rows.Valid known := by
  obtain ⟨_, array⟩ := candidate
  unfold arrayAt at array
  split at array
  · cases array
    exact validateRows_valid
  · cases array

/-- The next place leads if the array at the bracket between is led and covers what is passed. -/
theorem Leads.onward {next : Nat} {better : Option Rows}
    (leads : Leads unicode python known rawDecode raw pos best)
    (found : findBracket raw pos = some i)
    (grows : best.elim 0 List.length ≤ better.elim 0 List.length)
    (led
      : ∀ rows stop,
          IsCandidate unicode python known rawDecode raw i rows stop
          → rows.length ≤ better.elim 0 List.length)
    (covered
      : i + 1 < next
        → ∃ rows stop,
            IsCandidate unicode python known rawDecode raw i rows stop
            ∧ rows ≠ []
            ∧ next ≤ max stop (i + 1))
    : Leads unicode python known rawDecode raw next better := by
  intro j rows stop less candidate top
  obtain ⟨atLeast, before⟩ := findBracket_some found
  by_cases earlier : j < pos
  · exact Nat.le_trans (leads j rows stop earlier candidate top) grows
  · rcases Nat.lt_trichotomy j i with below | rfl | above
    · exact absurd candidate.1 (before j (Nat.le_of_not_lt earlier) below)
    · exact led rows stop candidate
    · obtain ⟨outer, end_, isOuter, some_, reaches⟩ := covered (by omega)
      have behind := top i outer end_ above isOuter some_
      omega

/-- What can be said of how the loop ends. -/
structure Scan.Sound (unicode : Unicode) (python : Python) (known : Finset Str)
    (rawDecode : RawDecode) (raw : Str) (scan : Scan)
    : Prop where
  complete : ∀ rows, scan = .complete rows → rows.Valid known ∧ rows.length = known.card
  valid : ∀ rows scanned candidates, scan = .stopped (some rows) scanned candidates
    → rows.Valid known
  leads
    : ∀ best scanned candidates,
        scan = .stopped best scanned candidates
        → scanned < SCAN_BUDGET
        → candidates < CANDIDATE_BUDGET
        → ∀ pos, Leads unicode python known rawDecode raw pos best

/-- A loop that stops for its budget. -/
theorem Scan.Sound.exhausted (valid : ∀ rows, best = some rows → rows.Valid known)
    (over_ : SCAN_BUDGET ≤ scanned ∨ CANDIDATE_BUDGET ≤ candidates)
    : Scan.Sound unicode python known rawDecode raw (.stopped best scanned candidates) := by
  refine ⟨nofun, fun rows _ _ same => ?_, fun _ _ _ same less fewer => ?_⟩
  · cases same
    exact valid rows rfl
  · cases same
    omega

/-- The loop keeps the best array ahead of every place it has left behind, by induction on what is
left of the budget.
-/
theorem scanLoop_sound (leads : Leads unicode python known rawDecode raw pos best)
    (valid : ∀ rows, best = some rows → rows.Valid known)
    : Scan.Sound unicode python known rawDecode raw
        (scanLoop unicode python known rawDecode raw left pos candidates best) := by
  induction left generalizing pos candidates best with
  | zero => exact .exhausted valid (.inl (Nat.le_refl _))
  | succ left ih =>
      unfold scanLoop
      split
      · split
        · rename_i absent
          refine ⟨nofun, fun rows _ _ same => ?_, fun _ _ _ same _ _ place => ?_⟩
          · cases same
            exact valid rows rfl
          · cases same
            intro i rows stop _ candidate top
            have before : i < pos := by
              by_contra beyond
              exact findBracket_none absent (Nat.le_of_not_lt beyond) candidate.1
            exact leads i rows stop before candidate top
        · rename_i i found
          have bracket (rows : Rows) (stop : Nat)
              (array : arrayAt unicode python known rawDecode raw i = some (rows, stop))
              : IsCandidate unicode python known rawDecode raw i rows stop :=
            ⟨findBracket_bracket found, array⟩
          split
          · rename_i absent
            refine ih (leads.onward found (Nat.le_refl _) (fun rows stop candidate => ?_)
              (fun less => absurd less (Nat.lt_irrefl _))) valid
            exact nomatch absent.symm.trans candidate.2
          · rename_i rows stop array
            have same {other : Rows} {end_ : Nat}
                (candidate : IsCandidate unicode python known rawDecode raw i other end_)
                : other = rows := by
              rw [candidate.2] at array
              cases array
              rfl
            split
            · rename_i empty
              refine ih (leads.onward found (Nat.le_refl _) (fun other _ candidate => ?_)
                (fun less => absurd less (Nat.lt_irrefl _))) valid
              rw [same candidate, List.isEmpty_iff.mp empty]
              exact Nat.zero_le _
            · rename_i filled
              have covered : i + 1 < max stop (i + 1)
                  → ∃ rows end_,
                      IsCandidate unicode python known rawDecode raw i rows end_
                      ∧ rows ≠ []
                      ∧ max stop (i + 1) ≤ max end_ (i + 1) :=
                fun _ =>
                  ⟨rows, stop, bracket rows stop array, by simpa using filled, Nat.le_refl _⟩
              have rowsValid := (bracket rows stop array).valid
              split
              · rename_i better
                split
                · rename_i all
                  refine ⟨fun other same => ?_, nofun, nofun⟩
                  cases same
                  exact ⟨rowsValid, all⟩
                · refine ih (leads.onward found ?_ (fun other _ candidate => ?_) covered) ?_
                  · cases best with
                    | none => exact Nat.zero_le _
                    | some best => exact Nat.le_of_lt (of_decide_eq_true better)
                  · rw [same candidate]
                    exact Nat.le_refl _
                  · intro other isOther
                    cases isOther
                    exact rowsValid
              · rename_i worse
                refine ih (leads.onward found (Nat.le_refl _) (fun other _ candidate => ?_) covered)
                  valid
                rw [same candidate]
                cases best with
                | none => exact absurd rfl worse
                | some best => exact Nat.le_of_not_lt fun less => worse (decide_eq_true less)
      · rename_i many
        exact .exhausted valid (.inr (Nat.le_of_not_lt many))

end Best

/-- For every output and every set of ids: the rows are those of distinct known ids; no candidate at
the top level has more of them; and a scan whose budget is spent gives nothing.
-/
theorem parse_sound_maximal (unicode : Unicode) (python : Python) (rawDecode : RawDecode)
    (raw : Str) (known : Finset Str)
    : (∀ rows,
        parseClassification unicode python known rawDecode raw = some rows
        → rows.Valid known
          ∧ (∀ row ∈ rows, row.2.category ∈ CATEGORIES)
          ∧ ∀ i other stop,
              IsCandidate unicode python known rawDecode raw i other stop
              → IsTopLevel unicode python known rawDecode raw i
              → other.length ≤ rows.length)
      ∧ ∀ best scanned candidates,
          scanLoop unicode python known rawDecode raw SCAN_BUDGET 0 0 none
            = .stopped best scanned candidates
          → SCAN_BUDGET ≤ scanned ∨ CANDIDATE_BUDGET ≤ candidates
          → parseClassification unicode python known rawDecode raw = none := by
  have sound : Scan.Sound unicode python known rawDecode raw
      (scanLoop unicode python known rawDecode raw SCAN_BUDGET 0 0 none) :=
    scanLoop_sound (fun i _ _ less => absurd less (Nat.not_lt_zero i)) nofun
  refine ⟨fun rows isParsed => ?_, fun best scanned candidates stopped over_ => ?_⟩
  · refine ⟨?_, fun row _ => row.2.known, fun i other stop candidate top => ?_⟩
    · unfold parseClassification at isParsed
      split at isParsed
      · rename_i complete
        cases isParsed
        exact (sound.complete rows complete).1
      · rename_i best scanned candidates stopped
        split at isParsed
        · cases isParsed
        · exact sound.valid rows scanned candidates (isParsed ▸ stopped)
    · unfold parseClassification at isParsed
      split at isParsed
      · rename_i complete
        cases isParsed
        rw [(sound.complete rows complete).2]
        exact candidate.valid.length_le
      · rename_i best scanned candidates stopped
        split at isParsed
        · cases isParsed
        · rename_i within
          simp only [Bool.or_eq_true, decide_eq_true_eq, not_or, Nat.not_le] at within
          rw [isParsed] at stopped
          exact sound.leads _ _ _ stopped within.1 within.2 (i + 1) i other stop
            (Nat.lt_succ_self i) candidate top
  · unfold parseClassification
    rw [stopped]
    exact if_pos (by simpa using over_)

def samplePython : Python :=
  {
    str := fun _ => ""
    repr := id
    lower := id
    isZero := fun _ => false
    isfinite := fun _ => true
    urlparse := fun _ => none
    subscriptError := fun _ => ""
    attributeError := fun _ => ""
  }

/-- Prose in brackets, then an array with a row for the id that was sent. -/
def sampleRaw : Str :=
  "[1] [\x7b\"thread_id\": \"t1\", \"category\": \"fyi\"\x7d]".toList

/-- What is decoded at the two brackets of the sample. -/
def sampleDecode : RawDecode := fun raw i =>
  if i = 0 then some (.array [.number "1"], 3)
  else
    let row := .object [("thread_id", .string "t1"), ("category", .string "fyi")]
    some (.array [row], raw.length)

theorem parse_sound_maximal_sample
    : ∃ rows,
        parseClassification { nfkc := id, isFormat := fun _ => false } samplePython
            {"t1".toList} sampleDecode sampleRaw
          = some rows
        ∧ rows.Valid {"t1".toList} := by
  have parsed
      : (parseClassification { nfkc := id, isFormat := fun _ => false } samplePython
          {"t1".toList} sampleDecode sampleRaw).isSome
        = true := by
    decide +kernel
  obtain ⟨rows, isParsed⟩ := Option.isSome_iff_exists.mp parsed
  have sound := parse_sound_maximal { nfkc := id, isFormat := fun _ => false } samplePython
    sampleDecode sampleRaw {"t1".toList}
  exact ⟨rows, isParsed, (sound.1 rows isParsed).1⟩

end Inbox
