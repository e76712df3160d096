import Myndaix.Capture.Skills
import Myndaix.Systems.Machine

/-! The table of skills: what indexing a list of them, a use and a prune do to its rows, each told
row by row.
-/

namespace Capture

open Relational Systems

-- The table

inductive SkillState where
  | active
  | stale
  | archived
deriving Repr, DecidableEq

/-- The columns that come from a skill's file. -/
structure SkillContent where
  description : Str
  body : Str
  bodySha : Str
  pathTrigger : Str
deriving Repr, DecidableEq

/-- One of the `skills` of `index_skills`. -/
structure SkillItem where
  name : Str
  content : SkillContent
  contentSha : Str
deriving Repr, DecidableEq

structure SkillRow where
  name : Str
  repoScope : Str
  content : SkillContent
  contentSha : Str
  state : SkillState
  lastUsedAt : Option Nat
  createdAt : Nat
deriving Repr, DecidableEq

structure SkillUse where
  reviewPlay : Str
  skillName : Str
  bodySha : Str
  repoScope : Str
  usedAt : Nat
deriving Repr, DecidableEq

structure SkillTables where
  skills : List SkillRow
  uses : List SkillUse
deriving Repr, DecidableEq

abbrev SkillKey : Type :=
  Str × Str

def SkillRow.key (row : SkillRow) : SkillKey :=
  (row.repoScope, row.name)

/-- `COALESCE(last_used_at, created_at)`. -/
def SkillRow.lastUse (row : SkillRow) : Nat :=
  row.lastUsedAt.getD row.createdAt

def SkillRow.archive (row : SkillRow) : SkillRow :=
  { row with state := .archived }

/-- The checks of the table's columns. -/
def SkillItem.checks (item : SkillItem) : Bool :=
  (match item.name with
    | [] => false
    | first :: rest =>
        tagStart first
          && rest.all (fun char => tagStart char || char = '.' || char = '_' || char = '-'))
    && item.content.description.length ≤ DESC_MAX && item.content.body.length ≤ BODY_MAX

-- Verbs

/-- In microseconds. -/
def HOUR : Nat := 3600000000

def DAY : Nat := 24 * HOUR

def SKILL_STALE_DAYS : Nat := 30

def SKILL_ARCHIVE_DAYS : Nat := 90

def SkillItem.row (item : SkillItem) (now : Nat) (repo : Str) : SkillRow where
  name := item.name
  repoScope := repo
  content := item.content
  contentSha := item.contentSha
  state := .active
  lastUsedAt := none
  createdAt := now

/-- The `DO UPDATE` of an upsert. -/
def SkillRow.overwrite (row : SkillRow) (item : SkillItem) : SkillRow :=
  { row with content := item.content, contentSha := item.contentSha, state := .active }

/-- One upsert, and whether it returned a row. -/
def upsertSkill (now : Nat) (repo : Str) (upserted : List SkillRow × Nat) (item : SkillItem)
    : List SkillRow × Nat :=
  match lookup SkillRow.key (repo, item.name) upserted.1 with
  | none => (upserted.1 ++ [item.row now repo], upserted.2 + 1)
  | some row =>
      if row.contentSha ≠ item.contentSha then
        (update (fun row => row.key = (repo, item.name)) (·.overwrite item) upserted.1,
          upserted.2 + 1)
      else upserted

structure IndexCounts where
  upserted : Nat
  archivedRemoved : Nat
  total : Nat
deriving Repr, DecidableEq

/-- A row of the repository that the list has not. -/
def isRemoved (repo : Str) (skills : List SkillItem) (row : SkillRow) : Bool :=
  row.repoScope = repo && row.state ≠ .archived && !(skills.map SkillItem.name).contains row.name

/-- `index_skills`, which raises where a row fails the checks and then leaves all as it was. -/
def indexSkills (now : Nat) (repo : Str) (skills : List SkillItem) (tables : SkillTables)
    : Option (SkillTables × IndexCounts) :=
  if skills.all SkillItem.checks then
    let (rows, upserted) := skills.foldl (upsertSkill now repo) (tables.skills, 0)
    some
      ({ tables with skills := update (isRemoved repo skills) SkillRow.archive rows },
        {
          upserted,
          archivedRemoved := rows.countP (isRemoved repo skills),
          total := skills.length
        })
  else none

/-- A row whose last use is to be written down. -/
def isUsed (now : Nat) (repo : Str) (names : List Str) (row : SkillRow) : Bool :=
  row.repoScope = repo && names.contains row.name
    && row.lastUsedAt.all (fun used => used + HOUR < now)

def recordSkillUse (now : Nat) (repo reviewPlay : Str) (used : List (Str × Str))
    (tables : SkillTables)
    : SkillTables :=
  if used = [] then tables
  else
    {
      skills :=
        update (isUsed now repo (used.map Prod.fst)) ({ · with lastUsedAt := some now })
          tables.skills,
      uses :=
        tables.uses
          ++ used.map (fun skill =>
              {
                reviewPlay, skillName := skill.1, bodySha := skill.2, repoScope := repo,
                usedAt := now
              })
    }

def isUnused (now days : Nat) (state : SkillState) (row : SkillRow) : Bool :=
  row.state = state && row.lastUse + days * DAY < now

/-- `prune_skills`, with how many went stale and how many were archived. -/
def pruneSkills (now : Nat) (tables : SkillTables) : SkillTables × Nat × Nat :=
  let isIdle := isUnused now SKILL_STALE_DAYS .active
  let staled := update isIdle ({ · with state := .stale }) tables.skills
  let isOld := isUnused now SKILL_ARCHIVE_DAYS .stale
  ({ tables with skills := update isOld SkillRow.archive staled },
    tables.skills.countP isIdle, staled.countP isOld)

-- Row by row

variable {now : Nat} {repo reviewPlay : Str} {skills own : List SkillItem} {item : SkillItem}
  {rows : List SkillRow} {row later : SkillRow} {tables tables' : SkillTables} {id : SkillKey}

/-- What an upsert makes of the row under its key. -/
def upsertRow (now : Nat) (repo : Str) (row : Option SkillRow) (item : SkillItem)
    : Option SkillRow :=
  match row with
  | none => some (item.row now repo)
  | some row => some (if row.contentSha ≠ item.contentSha then row.overwrite item else row)

/-- The items of a list under one name. -/
def named (skills : List SkillItem) (name : Str) : List SkillItem :=
  skills.filter (fun item => item.name = name)

/-- The item of a list that its last upsert writes under a name. -/
def listing (skills : List SkillItem) (name : Str) : Option SkillItem :=
  (named skills name).getLast?

theorem lookup_upsertSkill (upserted : List SkillRow × Nat)
    : lookup SkillRow.key id (upsertSkill now repo upserted item).1
      = if id = (repo, item.name) then upsertRow now repo (lookup SkillRow.key id upserted.1) item
        else lookup SkillRow.key id upserted.1 := by
  have keeps : ∀ row : SkillRow, (row.overwrite item).key = row.key := fun _ => rfl
  have ownKey : (item.row now repo).key = (repo, item.name) := rfl
  unfold upsertSkill
  split
  · rename_i absent
    rw [lookup_append, ownKey]
    by_cases own : id = (repo, item.name)
    · subst own
      rw [absent, if_pos rfl, if_pos rfl]
      rfl
    · rw [if_neg (Ne.symm own), if_neg own, Option.or_none]
  · rename_i row found
    by_cases own : id = (repo, item.name)
    · subst own
      rw [if_pos rfl, found, upsertRow]
      split
      · dsimp only
        rw [lookup_update keeps, found, Option.map_some, if_pos (by simp [lookup_key found])]
      · exact found
    · rw [if_neg own]
      split
      · dsimp only
        rw [lookup_update keeps]
        cases other : lookup SkillRow.key id upserted.1 with
        | none => rfl
        | some row => rw [Option.map_some, if_neg (by simpa [lookup_key other] using own)]
      · rfl

/-- The upserts under a key are those of its items, by induction on the list. -/
theorem lookup_upserts (upserted : List SkillRow × Nat)
    : lookup SkillRow.key id (skills.foldl (upsertSkill now repo) upserted).1
      = if id.1 = repo then
          (named skills id.2).foldl (upsertRow now repo) (lookup SkillRow.key id upserted.1)
        else lookup SkillRow.key id upserted.1 := by
  induction skills generalizing upserted with
  | nil => simp [named]
  | cons item skills ih =>
      rw [List.foldl_cons, ih, lookup_upsertSkill]
      by_cases inside : id.1 = repo
      · rw [if_pos inside, if_pos inside, named, named, List.filter_cons]
        by_cases own : item.name = id.2
        · have same : id = (repo, item.name) := Prod.ext inside own.symm
          rw [if_pos same, if_pos (by simpa using own), List.foldl_cons]
        · have other : id ≠ (repo, item.name) := fun same => own (congrArg Prod.snd same).symm
          rw [if_neg other, if_neg (by simpa using own)]
      · have other : id ≠ (repo, item.name) := fun same => inside (congrArg Prod.fst same)
        rw [if_neg inside, if_neg inside, if_neg other]

theorem named_eq_nil {name : Str}
    : named skills name = [] ↔ (skills.map SkillItem.name).contains name = false := by
  simp [named, List.filter_eq_nil_iff]

theorem isRemoved_archive (own : row.repoScope = repo)
    : (if isRemoved repo skills row then row.archive else row)
      = if named skills row.name = [] then row.archive else row := by
  have archived (state : row.state = .archived) : row.archive = row := by
    rw [SkillRow.archive, ← state]
  rw [isRemoved, decide_eq_true own, Bool.true_and]
  by_cases absent : named skills row.name = []
  · rw [if_pos absent, named_eq_nil.mp absent, Bool.not_false, Bool.and_true]
    split
    · rfl
    · rename_i kept
      exact (archived (by simpa using kept)).symm
  · rw [if_neg absent, if_neg]
    intro removed
    rw [Bool.and_eq_true, Bool.not_eq_true'] at removed
    exact absent (named_eq_nil.mpr removed.2)

theorem lookup_indexSkills {counts : IndexCounts}
    (indexed : indexSkills now repo skills tables = some (tables', counts))
    : lookup SkillRow.key id tables'.skills
      = if id.1 = repo then
          ((named skills id.2).foldl (upsertRow now repo)
            (lookup SkillRow.key id tables.skills)).map (fun row =>
              if named skills id.2 = [] then row.archive else row)
        else lookup SkillRow.key id tables.skills := by
  have keeps : ∀ row : SkillRow, row.archive.key = row.key := fun _ => rfl
  unfold indexSkills at indexed
  split at indexed
  · cases indexed
    dsimp only
    rw [lookup_update keeps, lookup_upserts]
    by_cases inside : id.1 = repo
    · rw [if_pos inside, if_pos inside]
      have folded := @lookup_upserts now repo skills id (tables.skills, 0)
      rw [if_pos inside] at folded
      cases found
          : (named skills id.2).foldl (upsertRow now repo)
            (lookup SkillRow.key id tables.skills) with
      | none => rfl
      | some row =>
          have key : row.key = id := lookup_key (folded.trans found)
          have own : row.repoScope = repo := (congrArg Prod.fst key).trans inside
          rw [Option.map_some, Option.map_some, isRemoved_archive own, ← key]
          rfl
    · rw [if_neg inside, if_neg inside]
      cases found : lookup SkillRow.key id tables.skills with
      | none => rfl
      | some row =>
          have key : row.repoScope = id.1 := congrArg Prod.fst (lookup_key found)
          rw [Option.map_some, if_neg (by simp [isRemoved, key, inside])]
  · cases indexed

/-- What a prune makes of a row. -/
def pruneRow (now : Nat) (row : SkillRow) : SkillRow :=
  let row :=
    if isUnused now SKILL_STALE_DAYS .active row then { row with state := .stale } else row
  if isUnused now SKILL_ARCHIVE_DAYS .stale row then row.archive else row

theorem lookup_pruneSkills
    : lookup SkillRow.key id (pruneSkills now tables).1.skills
      = (lookup SkillRow.key id tables.skills).map (pruneRow now) := by
  have staled : ∀ row : SkillRow, SkillRow.key { row with state := .stale } = row.key :=
    fun _ => rfl
  have archived : ∀ row : SkillRow, row.archive.key = row.key := fun _ => rfl
  rw [pruneSkills]
  dsimp only
  rw [lookup_update archived, lookup_update staled, Option.map_map]
  rfl

/-- What a use makes of a row. -/
def useRow (now : Nat) (repo : Str) (names : List Str) (row : SkillRow) : SkillRow :=
  if isUsed now repo names row then { row with lastUsedAt := some now } else row

theorem lookup_recordSkillUse {used : List (Str × Str)}
    : lookup SkillRow.key id (recordSkillUse now repo reviewPlay used tables).skills
      = (lookup SkillRow.key id tables.skills).map (useRow now repo (used.map Prod.fst)) := by
  have keeps : ∀ row : SkillRow, SkillRow.key { row with lastUsedAt := some now } = row.key :=
    fun _ => rfl
  unfold recordSkillUse
  split
  · rename_i none_
    subst none_
    have same : useRow now repo [] = fun row => row := by
      funext row
      simp [useRow, isUsed]
    rw [List.map_nil, same, Option.map_id_fun']
    rfl
  · dsimp only
    rw [lookup_update keeps]
    rfl

-- Rows through upserts

/-- What the upserts of some items make of a row. -/
structure Upserts (own : List SkillItem) (row later : SkillRow) : Prop where
  key : later.key = row.key
  lastUsedAt : later.lastUsedAt = row.lastUsedAt
  createdAt : later.createdAt = row.createdAt
  contentSha : later.contentSha = (own.getLast?.map SkillItem.contentSha).getD row.contentSha
  state
    : later.state = if ∀ item ∈ own, item.contentSha = row.contentSha then row.state else .active
  source
    : (later.content = row.content ∧ later.contentSha = row.contentSha)
      ∨ ∃ item ∈ own, later.content = item.content ∧ later.contentSha = item.contentSha

theorem Upserts.lastUse (upserts : Upserts own row later) : later.lastUse = row.lastUse := by
  rw [SkillRow.lastUse, SkillRow.lastUse, upserts.lastUsedAt, upserts.createdAt]

/-- An upsert after another, by induction on the items. -/
theorem foldl_upsertRow (own : List SkillItem) (row : SkillRow)
    : ∃ later, own.foldl (upsertRow now repo) (some row) = some later ∧ Upserts own row later := by
  induction own generalizing row with
  | nil => exact ⟨row, rfl, rfl, rfl, rfl, rfl, by simp, .inl ⟨rfl, rfl⟩⟩
  | cons item own ih =>
      rw [List.foldl_cons, upsertRow]
      by_cases same : row.contentSha = item.contentSha
      · rw [if_neg (not_not.mpr same)]
        obtain ⟨later, found, key, lastUsedAt, createdAt, contentSha, state, source⟩ := ih row
        refine ⟨later, found, key, lastUsedAt, createdAt, ?_, ?_, ?_⟩
        · rw [contentSha, List.getLast?_cons]
          cases own.getLast? with
          | none => exact same
          | some last => rfl
        · rw [state]
          simp only [List.forall_mem_cons, same.symm, true_and]
        · exact source.imp_right fun ⟨other, mem, copied⟩ =>
            ⟨other, List.mem_cons_of_mem _ mem, copied⟩
      · rw [if_pos same]
        obtain ⟨later, found, key, lastUsedAt, createdAt, contentSha, state, source⟩ :=
          ih (row.overwrite item)
        refine ⟨later, found, key, lastUsedAt, createdAt, ?_, ?_, ?_⟩
        · rw [contentSha, List.getLast?_cons]
          cases own.getLast? with
          | none => rfl
          | some last => rfl
        · have differs : ¬∀ other ∈ item :: own, other.contentSha = row.contentSha := fun all =>
            same (all item List.mem_cons_self).symm
          rw [state, if_neg differs]
          exact ite_self _
        · rcases source with copied | ⟨other, mem, copied⟩
          · exact .inr ⟨item, List.mem_cons_self, copied⟩
          · exact .inr ⟨other, List.mem_cons_of_mem _ mem, copied⟩

/-- Items under a key leave a row with what the last of them has. A new row is active, and used as
of now.
-/
theorem foldl_upsertRow_listed (isLast : own.getLast? = some item) (row? : Option SkillRow)
    : ∃ later,
        own.foldl (upsertRow now repo) row? = some later ∧ later.contentSha = item.contentSha
        ∧ (row? = none
            → later.state = .active ∧ later.lastUse = now
              ∧ ∃ item ∈ own, later.content = item.content ∧ later.contentSha = item.contentSha)
        ∧ ∀ row, row? = some row → Upserts own row later := by
  cases row? with
  | some row =>
      obtain ⟨later, found, upserts⟩ := @foldl_upsertRow now repo own row
      refine ⟨later, found, ?_, nofun, fun row same => Option.some.inj same ▸ upserts⟩
      rw [upserts.contentSha, isLast]
      rfl
  | none =>
      cases own with
      | nil => cases isLast
      | cons first own =>
          obtain ⟨later, found, upserts⟩ := @foldl_upsertRow now repo own (first.row now repo)
          refine ⟨later, found, ?_, fun _ => ⟨?_, upserts.lastUse, ?_⟩, nofun⟩
          · rw [List.getLast?_cons] at isLast
            rw [upserts.contentSha, ← Option.some.inj isLast]
            cases own.getLast? with
            | none => rfl
            | some last => rfl
          · rw [upserts.state]
            exact ite_self _
          · rcases upserts.source with copied | ⟨other, mem, copied⟩
            · exact ⟨first, List.mem_cons_self, copied⟩
            · exact ⟨other, List.mem_cons_of_mem _ mem, copied⟩

end Capture
