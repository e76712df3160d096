import Mathlib.Logic.Function.Basic
import Myndaix.Capture.SkillIndex

/-! Runs of the skill index: lists are indexed, skills are used and pruned, by a clock that never
goes back. A list shows in the table as it should when its skills are new to it, and seldom else.
-/

namespace Capture

open Relational Systems

-- Runs

inductive SkillCall where
  | index (repo : Str) (skills : List SkillItem)
  | prune
  | use (repo reviewPlay : Str) (used : List (Str × Str))
deriving Repr, DecidableEq

/-- The tables, the time of the last call, and the last list of each repository. -/
structure SkillWorld where
  tables : SkillTables
  clock : Nat
  latest : Str → List SkillItem

/-- A call at a time; an indexing that raises is none. -/
def skillStep : Nat × SkillCall → SkillWorld → Option SkillWorld
  | (now, .index repo skills), world =>
      (indexSkills now repo skills world.tables).map (fun indexed =>
        {
          tables := indexed.1,
          clock := now,
          latest := Function.update world.latest repo skills
        })
  | (now, .prune), world =>
      some { world with tables := (pruneSkills now world.tables).1, clock := now }
  | (now, .use repo reviewPlay used), world =>
      some
        {
          world with
          tables := recordSkillUse now repo reviewPlay used world.tables,
          clock := now
        }

def skillMachine (initial : SkillWorld → Prop) : Machine SkillWorld (Nat × SkillCall) where
  initial
  step := skillStep

/-- An empty table. -/
def SkillWorld.start : SkillWorld :=
  ⟨⟨[], []⟩, 0, fun _ => []⟩

/-- The clock does not go back, and the hash of an item tells what it holds. -/
def Timely (contentOf : Str → SkillContent) (world : SkillWorld) (call : Nat × SkillCall) : Prop :=
  world.clock ≤ call.1
  ∧ ∀ repo skills,
      call.2 = .index repo skills → ∀ item ∈ skills, item.content = contentOf item.contentSha

/-- The states that sequences of calls lead to. -/
def ReachableSkills (contentOf : Str → SkillContent) (world : SkillWorld) : Prop :=
  (skillMachine (· = .start)).Runs (Timely contentOf) world

/-- The row of a skill. -/
def SkillWorld.row? (world : SkillWorld) (repo name : Str) : Option SkillRow :=
  lookup SkillRow.key (repo, name) world.tables.skills

-- Steps

variable {contentOf : Str → SkillContent} {world later : SkillWorld} {now : Nat}
  {repo other name reviewPlay : Str} {skills : List SkillItem} {item : SkillItem} {row : SkillRow}
  {used : List (Str × Str)}

theorem index_row? (indexed : skillStep (now, .index repo skills) world = some later)
    : later.row? other name
      = if other = repo then
          ((named skills name).foldl (upsertRow now repo) (world.row? other name)).map (fun row =>
            if named skills name = [] then row.archive else row)
        else world.row? other name := by
  obtain ⟨⟨tables, counts⟩, done, rfl⟩ := Option.map_eq_some_iff.mp indexed
  exact lookup_indexSkills done

theorem index_latest (indexed : skillStep (now, .index repo skills) world = some later)
    : later.latest = Function.update world.latest repo skills ∧ later.clock = now := by
  obtain ⟨_, -, rfl⟩ := Option.map_eq_some_iff.mp indexed
  exact ⟨rfl, rfl⟩

theorem prune_row? (pruned : skillStep (now, .prune) world = some later)
    : later.row? repo name = (world.row? repo name).map (pruneRow now) := by
  cases pruned
  exact lookup_pruneSkills

theorem use_row? (recorded : skillStep (now, .use repo reviewPlay used) world = some later)
    : later.row? other name
      = (world.row? other name).map (useRow now repo (used.map Prod.fst)) := by
  cases recorded
  exact lookup_recordSkillUse

theorem index_row?_listed (indexed : skillStep (now, .index repo skills) world = some later)
    (listed : listing skills name = some item)
    : ∃ row,
        later.row? repo name = some row ∧ row.contentSha = item.contentSha
        ∧ (world.row? repo name = none
            → row.state = .active ∧ row.lastUse = now
              ∧ ∃ item ∈ skills, row.content = item.content ∧ row.contentSha = item.contentSha)
        ∧ ∀ before, world.row? repo name = some before
          → Upserts (named skills name) before row := by
  obtain ⟨row, found, contentSha, fresh, upserts⟩ :=
    @foldl_upsertRow_listed now repo _ _ listed (world.row? repo name)
  have some : named skills name ≠ [] := fun none_ => by
    rw [listing, none_] at listed
    cases listed
  refine ⟨row, ?_, contentSha, fun absent => ?_, upserts⟩
  · rw [index_row? indexed, if_pos rfl, found, Option.map_some, if_neg some]
  · obtain ⟨active, lastUse, item, mem, copied⟩ := fresh absent
    exact ⟨active, lastUse, item, (List.mem_filter.mp mem).1, copied⟩

theorem index_row?_absent (indexed : skillStep (now, .index repo skills) world = some later)
    (absent : listing skills name = none)
    : later.row? repo name = (world.row? repo name).map SkillRow.archive := by
  have none_ : named skills name = [] := List.getLast?_eq_none_iff.mp absent
  rw [index_row? indexed, if_pos rfl, none_]
  simp

theorem pruneRow_facts (now : Nat) (row : SkillRow)
    : (pruneRow now row).content = row.content ∧ (pruneRow now row).contentSha = row.contentSha
      ∧ (pruneRow now row).lastUse = row.lastUse
      ∧ (row.state = .archived → (pruneRow now row).state = .archived) := by
  unfold pruneRow
  dsimp only
  split
  · rename_i idle
    have active : row.state = .active := by
      simpa [isUnused] using (Bool.and_eq_true ..).mp idle |>.1
    split
    · exact ⟨rfl, rfl, rfl, fun _ => rfl⟩
    · exact ⟨rfl, rfl, rfl, fun archived => by rw [active] at archived; cases archived⟩
  · split
    · exact ⟨rfl, rfl, rfl, fun _ => rfl⟩
    · exact ⟨rfl, rfl, rfl, id⟩

/-- A row that has been unused for that long is not active behind a prune. -/
theorem pruneRow_idle (idle : row.lastUse + SKILL_STALE_DAYS * DAY < now)
    : (pruneRow now row).state ≠ .active := by
  unfold pruneRow
  dsimp only
  split
  · split
    · exact nofun
    · exact nofun
  · rename_i busy
    split
    · exact nofun
    · intro active
      simp [isUnused, active, idle] at busy

/-- A use moves the last use of a row to now or leaves it. -/
theorem useRow_facts (now : Nat) (repo : Str) (names : List Str) (row : SkillRow)
    : (useRow now repo names row).content = row.content
      ∧ (useRow now repo names row).contentSha = row.contentSha
      ∧ (useRow now repo names row).state = row.state
      ∧ ((useRow now repo names row).lastUse = now
          ∨ (useRow now repo names row).lastUse = row.lastUse) := by
  unfold useRow
  split
  · exact ⟨rfl, rfl, rfl, .inl rfl⟩
  · exact ⟨rfl, rfl, rfl, .inr rfl⟩

-- What holds of all runs

/-- Rows and lists hold what their hash tells, and rows were used in the past. A listed skill has a
row with its hash, and the row of another one is archived.
-/
structure SkillsSound (contentOf : Str → SkillContent) (world : SkillWorld) : Prop where
  genuine
    : ∀ repo name row,
        world.row? repo name = some row → row.content = contentOf row.contentSha
  lists : ∀ repo, ∀ item ∈ world.latest repo, item.content = contentOf item.contentSha
  past : ∀ repo name row, world.row? repo name = some row → row.lastUse ≤ world.clock
  listed
    : ∀ repo name item,
        listing (world.latest repo) name = some item
        → ∃ row, world.row? repo name = some row ∧ row.contentSha = item.contentSha
  dropped
    : ∀ repo name row,
        listing (world.latest repo) name = none
        → world.row? repo name = some row
        → row.state = .archived

theorem SkillsSound.start : SkillsSound contentOf .start where
  genuine _ _ _ found := by cases found
  lists _ _ mem := by cases mem
  past _ _ _ found := by cases found
  listed _ _ _ listed := by cases listed
  dropped _ _ _ _ found := by cases found

theorem SkillsSound.index (sound : SkillsSound contentOf world)
    (timely : Timely contentOf world (now, .index repo skills))
    (indexed : skillStep (now, .index repo skills) world = some later)
    : SkillsSound contentOf later := by
  obtain ⟨latest, clock⟩ := index_latest indexed
  have genuine := timely.2 repo skills rfl
  have elsewhere {other : Str} (apart : other ≠ repo) (name : Str)
      : later.row? other name = world.row? other name := by
    rw [index_row? indexed, if_neg apart]
  have rows (name : Str) (row : SkillRow) (found : later.row? repo name = some row)
      : row.content = contentOf row.contentSha ∧ row.lastUse ≤ now := by
    cases isListed : listing skills name with
    | none =>
        rw [index_row?_absent indexed isListed] at found
        obtain ⟨before, old, rfl⟩ := Option.map_eq_some_iff.mp found
        exact ⟨sound.genuine repo name before old,
          (sound.past repo name before old).trans timely.1⟩
    | some item =>
        obtain ⟨row', found', -, fresh, upserts⟩ := index_row?_listed indexed isListed
        obtain rfl := Option.some.inj (found'.symm.trans found)
        cases old : world.row? repo name with
        | none =>
            obtain ⟨-, lastUse, item, mem, content, contentSha⟩ := fresh old
            exact ⟨by rw [content, contentSha, genuine item mem], lastUse.le⟩
        | some before =>
            have upserts := upserts before old
            refine ⟨?_, ?_⟩
            · rcases upserts.source with ⟨content, contentSha⟩ | ⟨item, mem, content, contentSha⟩
              · rw [content, contentSha, sound.genuine _ _ _ old]
              · rw [content, contentSha, genuine item (List.mem_filter.mp mem).1]
            · rw [upserts.lastUse]
              exact (sound.past _ _ _ old).trans timely.1
  refine ⟨fun other name row found => ?_, fun other item mem => ?_,
    fun other name row found => ?_, fun other name item isListed => ?_,
    fun other name row absent found => ?_⟩
  · by_cases own : other = repo
    · subst own
      exact (rows name row found).1
    · exact sound.genuine other name row (elsewhere own name ▸ found)
  · rw [latest] at mem
    by_cases own : other = repo
    · subst own
      rw [Function.update_self] at mem
      exact genuine item mem
    · rw [Function.update_of_ne own] at mem
      exact sound.lists other item mem
  · rw [clock]
    by_cases own : other = repo
    · subst own
      exact (rows name row found).2
    · exact (sound.past other name row (elsewhere own name ▸ found)).trans timely.1
  · rw [latest] at isListed
    by_cases own : other = repo
    · subst own
      rw [Function.update_self] at isListed
      obtain ⟨row, found, contentSha, -⟩ := index_row?_listed indexed isListed
      exact ⟨row, found, contentSha⟩
    · rw [Function.update_of_ne own] at isListed
      rw [elsewhere own]
      exact sound.listed other name item isListed
  · rw [latest] at absent
    by_cases own : other = repo
    · subst own
      rw [Function.update_self] at absent
      rw [index_row?_absent indexed absent] at found
      obtain ⟨before, -, rfl⟩ := Option.map_eq_some_iff.mp found
      rfl
    · rw [Function.update_of_ne own] at absent
      exact sound.dropped other name row absent (elsewhere own name ▸ found)

/-- So does a change of the rows alone that keeps what they hold. -/
theorem SkillsSound.change (sound : SkillsSound contentOf world) {change : SkillRow → SkillRow}
    (rows : ∀ repo name, later.row? repo name = (world.row? repo name).map change)
    (latest : later.latest = world.latest)
    (keeps
      : ∀ row,
          (change row).content = row.content ∧ (change row).contentSha = row.contentSha
          ∧ (row.lastUse ≤ world.clock → (change row).lastUse ≤ later.clock)
          ∧ (row.state = .archived → (change row).state = .archived))
    : SkillsSound contentOf later := by
  refine ⟨fun repo name row found => ?_, latest ▸ sound.lists, fun repo name row found => ?_,
    fun repo name item isListed => ?_, fun repo name row absent found => ?_⟩
  · rw [rows] at found
    obtain ⟨before, old, rfl⟩ := Option.map_eq_some_iff.mp found
    rw [(keeps before).1, (keeps before).2.1]
    exact sound.genuine repo name before old
  · rw [rows] at found
    obtain ⟨before, old, rfl⟩ := Option.map_eq_some_iff.mp found
    exact (keeps before).2.2.1 (sound.past repo name before old)
  · rw [latest] at isListed
    obtain ⟨before, old, contentSha⟩ := sound.listed repo name item isListed
    exact ⟨change before, by rw [rows, old, Option.map_some],
      (keeps before).2.1.trans contentSha⟩
  · rw [latest] at absent
    rw [rows] at found
    obtain ⟨before, old, rfl⟩ := Option.map_eq_some_iff.mp found
    exact (keeps before).2.2.2 (sound.dropped repo name before absent old)

theorem SkillsSound.step {call : Nat × SkillCall} (sound : SkillsSound contentOf world)
    (timely : Timely contentOf world call) (taken : skillStep call world = some later)
    : SkillsSound contentOf later := by
  obtain ⟨now, call⟩ := call
  cases call with
  | index repo skills => exact sound.index timely taken
  | prune =>
      refine sound.change (fun _ _ => prune_row? taken) (by cases taken; rfl) fun row => ?_
      obtain ⟨content, contentSha, lastUse, archived⟩ := pruneRow_facts now row
      refine ⟨content, contentSha, fun past => ?_, archived⟩
      cases taken
      rw [lastUse]
      exact past.trans timely.1
  | use repo reviewPlay used =>
      refine sound.change (fun _ _ => use_row? taken) (by cases taken; rfl) fun row => ?_
      obtain ⟨content, contentSha, state, lastUse⟩ := useRow_facts now repo (used.map Prod.fst) row
      refine ⟨content, contentSha, fun past => ?_, state.trans⟩
      cases taken
      rcases lastUse with moved | kept
      · exact moved.le
      · rw [kept]
        exact past.trans timely.1

theorem ReachableSkills.sound (reachable : ReachableSkills contentOf world)
    : SkillsSound contentOf world := by
  refine reachable.invariant ?_ fun _ _ _ sound timely taken => sound.step timely taken
  rintro world rfl
  exact .start

-- What a list should show

/-- The skill is active, with what it was listed with last. -/
def ShowsListed (world : SkillWorld) (repo name : Str) : Prop :=
  ∃ item row,
    listing (world.latest repo) name = some item ∧ world.row? repo name = some row
    ∧ row.state = .active ∧ row.contentSha = item.contentSha ∧ row.content = item.content

/-- A call up to the limit that does not drop the skill. -/
def Keeps (contentOf : Str → SkillContent) (repo name : Str) (limit : Nat) (world : SkillWorld)
    (call : Nat × SkillCall)
    : Prop :=
  Timely contentOf world call ∧ call.1 ≤ limit
  ∧ ∀ skills, call.2 = .index repo skills → listing skills name ≠ none

/-- Where such calls lead to. -/
def Onward (contentOf : Str → SkillContent) (repo name : Str) (limit : Nat)
    (world later : SkillWorld)
    : Prop :=
  (skillMachine (· = world)).Runs (Keeps contentOf repo name limit) later

/-- The skill was in the list before as well, with the same hash. -/
def Relisted (world : SkillWorld) (repo : Str) (item : SkillItem) : Prop :=
  ∃ old, listing (world.latest repo) item.name = some old ∧ old.contentSha = item.contentSha

/-- What the index promises of a list: skills that are not in it are archived, one that is new,
edited or back is active for as long as nothing drops it in these days, and the same list again
changes nothing.
-/
structure Reflects (contentOf : Str → SkillContent) (world later : SkillWorld) (now : Nat)
    (repo : Str) (skills : List SkillItem)
    : Prop where
  absent
    : ∀ name row,
        (∀ item ∈ skills, item.name ≠ name)
        → later.row? repo name = some row
        → row.state = .archived
  shown
    : ∀ item,
        listing skills item.name = some item
        → ¬Relisted world repo item
        → ∀ onward,
            Onward contentOf repo item.name (now + SKILL_STALE_DAYS * DAY) later onward
            → ShowsListed onward repo item.name
  again
    : ∀ now' ≥ now,
        ∃ twice,
          skillStep (now', .index repo skills) later = some twice
          ∧ twice.tables.uses = later.tables.uses
          ∧ ∀ other name, twice.row? other name = later.row? other name

/-- Each such skill has no row, or is written over one of another hash that was used only now. -/
def Settles (world : SkillWorld) (now : Nat) (repo : Str) (skills : List SkillItem) : Prop :=
  ∀ item,
    listing skills item.name = some item
    → ¬Relisted world repo item
    → ∀ row,
        world.row? repo item.name = some row
        → (∃ other ∈ named skills item.name, other.contentSha ≠ row.contentSha)
          ∧ now ≤ row.lastUse

theorem listing_eq_none : listing skills name = none ↔ ∀ item ∈ skills, item.name ≠ name := by
  rw [listing, List.getLast?_eq_none_iff, named, List.filter_eq_nil_iff]
  simp

theorem index_absent (indexed : skillStep (now, .index repo skills) world = some later)
    (absent : ∀ item ∈ skills, item.name ≠ name) (found : later.row? repo name = some row)
    : row.state = .archived := by
  rw [index_row?_absent indexed (listing_eq_none.mpr absent)] at found
  obtain ⟨before, -, rfl⟩ := Option.map_eq_some_iff.mp found
  rfl

/-- Upserts of items that a row has come from leave it. -/
theorem Upserts.same {own : List SkillItem} {row later : SkillRow} (upserts : Upserts own row later)
    (isLast : own.getLast? = some item) (stored : row.contentSha = item.contentSha)
    (settled : (∃ other ∈ own, other.contentSha ≠ row.contentSha) → row.state = .active)
    (genuine : row.content = contentOf row.contentSha)
    (items : ∀ item ∈ own, item.content = contentOf item.contentSha)
    : later = row := by
  have contentSha : later.contentSha = row.contentSha := by
    rw [upserts.contentSha, isLast, stored]
    rfl
  have content : later.content = row.content := by
    rcases upserts.source with ⟨content, -⟩ | ⟨other, mem, content, copied⟩
    · exact content
    · rw [content, items other mem, ← copied, contentSha, genuine]
  have state : later.state = row.state := by
    rw [upserts.state]
    split
    · rfl
    · rename_i differs
      simp only [not_forall, exists_prop] at differs
      exact (settled differs).symm
  obtain ⟨repo, name⟩ := Prod.mk.inj upserts.key
  have used := upserts.lastUsedAt
  have created := upserts.createdAt
  cases later
  cases row
  simp_all

/-- A list indexed twice in a row changes nothing the second time. -/
theorem index_again (sound : SkillsSound contentOf world)
    (timely : Timely contentOf world (now, .index repo skills))
    (indexed : skillStep (now, .index repo skills) world = some later) (now' : Nat)
    : ∃ twice,
        skillStep (now', .index repo skills) later = some twice
        ∧ twice.tables.uses = later.tables.uses
        ∧ ∀ other name, twice.row? other name = later.row? other name := by
  have sound' := sound.index timely indexed
  obtain ⟨⟨tables, counts⟩, done, same⟩ := Option.map_eq_some_iff.mp indexed
  have checked : skills.all SkillItem.checks = true := by
    by_contra fails
    rw [indexSkills, if_neg fails] at done
    cases done
  obtain ⟨twice, indexed'⟩ : ∃ twice, skillStep (now', .index repo skills) later = some twice := by
    rw [skillStep, indexSkills, if_pos checked]
    exact ⟨_, rfl⟩
  refine ⟨twice, indexed', ?_, fun other name => ?_⟩
  · rw [skillStep, indexSkills, if_pos checked] at indexed'
    cases indexed'
    rfl
  · by_cases own : other = repo
    · subst own
      cases isListed : listing skills name with
      | none =>
          rw [index_row?_absent indexed' isListed, index_row?_absent indexed isListed,
            Option.map_map]
          rfl
      | some item =>
          obtain ⟨row, found, contentSha, fresh, upserts⟩ := index_row?_listed indexed isListed
          obtain ⟨row', found', -, -, upserts'⟩ := index_row?_listed indexed' isListed
          rw [found, found']
          refine congrArg some ((upserts' row found).same isListed contentSha ?_
            (sound'.genuine _ _ _ found) fun item mem =>
              timely.2 _ _ rfl item (List.mem_filter.mp mem).1)
          rintro ⟨differs, mem, apart⟩
          cases old : world.row? other name with
          | none => exact (fresh old).1
          | some before =>
              rw [(upserts before old).state, if_neg]
              intro all
              refine apart ((all differs mem).trans ?_)
              rw [contentSha, all item (List.mem_of_getLast? isListed)]
    · rw [index_row? indexed', if_neg own]

/-- The skill is listed, and its row active and used since. -/
structure ShownSince (contentOf : Str → SkillContent) (repo name : Str) (since : Nat)
    (world : SkillWorld)
    : Prop where
  sound : SkillsSound contentOf world
  listed : listing (world.latest repo) name ≠ none
  row
    : ∃ row, world.row? repo name = some row ∧ row.state = .active ∧ since ≤ row.lastUse

theorem ShownSince.shows {since : Nat} (shown : ShownSince contentOf repo name since world)
    : ShowsListed world repo name := by
  obtain ⟨item, isListed⟩ := Option.ne_none_iff_exists'.mp shown.listed
  obtain ⟨row, found, active, -⟩ := shown.row
  obtain ⟨row', found', contentSha⟩ := shown.sound.listed repo name item isListed
  obtain rfl := Option.some.inj (found'.symm.trans found)
  have inList : item ∈ world.latest repo :=
    (List.mem_filter.mp (List.mem_of_getLast? isListed)).1
  refine ⟨item, row', isListed, found, active, contentSha, ?_⟩
  rw [shown.sound.genuine _ _ _ found, contentSha, shown.sound.lists repo item inList]

/-- Nothing unlists the skill, and no prune finds it unused for long enough. -/
theorem ShownSince.step {since : Nat} {call : Nat × SkillCall}
    (shown : ShownSince contentOf repo name since world)
    (keeps : Keeps contentOf repo name (since + SKILL_STALE_DAYS * DAY) world call)
    (taken : skillStep call world = some later)
    : ShownSince contentOf repo name since later := by
  obtain ⟨timely, inTime, undropped⟩ := keeps
  obtain ⟨row, found, active, recent⟩ := shown.row
  refine ⟨shown.sound.step timely taken, ?_, ?_⟩
  · obtain ⟨now, call⟩ := call
    cases call with
    | index other skills =>
        rw [(index_latest taken).1]
        by_cases own : repo = other
        · subst own
          rw [Function.update_self]
          exact undropped skills rfl
        · rw [Function.update_of_ne own]
          exact shown.listed
    | prune =>
        cases taken
        exact shown.listed
    | use other reviewPlay used =>
        cases taken
        exact shown.listed
  · obtain ⟨now, call⟩ := call
    cases call with
    | index other skills =>
        by_cases own : repo = other
        · subst own
          obtain ⟨item, isListed⟩ := Option.ne_none_iff_exists'.mp (undropped skills rfl)
          obtain ⟨row', found', -, -, upserts⟩ := index_row?_listed taken isListed
          refine ⟨row', found', ?_, ?_⟩
          · rw [(upserts row found).state, active]
            exact ite_self _
          · rw [(upserts row found).lastUse]
            exact recent
        · refine ⟨row, ?_, active, recent⟩
          rw [index_row? taken, if_neg own]
          exact found
    | prune =>
        refine ⟨row, ?_, active, recent⟩
        have notIdle : isUnused now SKILL_STALE_DAYS .active row = false := by
          have inTime : now ≤ since + SKILL_STALE_DAYS * DAY := inTime
          rw [isUnused, Bool.and_eq_false_iff, decide_eq_false_iff_not, decide_eq_false_iff_not]
          exact .inr (by omega)
        have notStale : isUnused now SKILL_ARCHIVE_DAYS .stale row = false := by
          rw [isUnused, active]
          rfl
        rw [prune_row? taken, found, Option.map_some, pruneRow, notIdle]
        simp only [Bool.false_eq_true, if_false, notStale]
    | use other reviewPlay used =>
        obtain ⟨-, -, state, lastUse⟩ := useRow_facts now other (used.map Prod.fst) row
        refine ⟨useRow now other (used.map Prod.fst) row, ?_, state.trans active, ?_⟩
        · rw [use_row? taken, found, Option.map_some]
        · rcases lastUse with moved | kept
          · rw [moved]
            exact recent.trans ((shown.sound.past _ _ _ found).trans timely.1)
          · rw [kept]
            exact recent

/-- A list shows as promised exactly when its new skills settle. -/
theorem index_shown_iff (sound : SkillsSound contentOf world)
    (timely : Timely contentOf world (now, .index repo skills))
    (indexed : skillStep (now, .index repo skills) world = some later)
    : (∀ item,
          listing skills item.name = some item
          → ¬Relisted world repo item
          → ∀ onward,
              Onward contentOf repo item.name (now + SKILL_STALE_DAYS * DAY) later onward
              → ShowsListed onward repo item.name)
      ↔ Settles world now repo skills := by
  obtain ⟨latest, clock⟩ := index_latest indexed
  constructor
  · intro shown item isListed new before old
    obtain ⟨row, found, -, -, upserts⟩ := index_row?_listed indexed isListed
    have upserts := upserts before old
    have shown := shown item isListed new
    have here : Onward contentOf repo item.name (now + SKILL_STALE_DAYS * DAY) later later :=
      .start rfl
    constructor
    · by_contra differs
      have same : ∀ other ∈ named skills item.name, other.contentSha = before.contentSha := by
        simpa using differs
      obtain ⟨_, row', -, found', active, -⟩ := shown later here
      obtain rfl := Option.some.inj (found.symm.trans found')
      rw [upserts.state, if_pos same] at active
      -- no item has another hash, so that the skill must have been dropped before
      have dropped : listing (world.latest repo) item.name = none := by
        by_contra inLatest
        obtain ⟨last, isLast⟩ := Option.ne_none_iff_exists'.mp inLatest
        obtain ⟨row', found', contentSha⟩ := sound.listed _ _ _ isLast
        obtain rfl := Option.some.inj (old.symm.trans found')
        refine new ⟨last, isLast, contentSha.symm.trans ?_⟩
        exact (same item (List.mem_of_getLast? isListed)).symm
      rw [sound.dropped _ _ _ dropped old] at active
      cases active
    · by_contra early
      -- a prune at the end of these days finds the skill unused for longer
      let limit := now + SKILL_STALE_DAYS * DAY
      let pruned : SkillWorld :=
        { later with tables := (pruneSkills limit later.tables).1, clock := limit }
      have taken : skillStep (limit, .prune) later = some pruned := rfl
      have allowed : Keeps contentOf repo item.name limit later (limit, .prune) := by
        refine ⟨⟨?_, nofun⟩, le_rfl, nofun⟩
        rw [clock]
        exact Nat.le_add_right _ _
      obtain ⟨_, row', -, found', active, -⟩ := shown pruned (here.step allowed taken)
      rw [prune_row? taken, found, Option.map_some] at found'
      obtain rfl := Option.some.inj found'
      refine absurd active (pruneRow_idle ?_)
      rw [upserts.lastUse]
      omega
  · intro settles item isListed new onward run
    have first : ShownSince contentOf repo item.name now later := by
      refine ⟨sound.index timely indexed, ?_, ?_⟩
      · rw [latest, Function.update_self, isListed]
        exact nofun
      · obtain ⟨row, found, -, fresh, upserts⟩ := index_row?_listed indexed isListed
        refine ⟨row, found, ?_⟩
        cases old : world.row? repo item.name with
        | none =>
            obtain ⟨active, lastUse, -⟩ := fresh old
            exact ⟨active, lastUse.ge⟩
        | some before =>
            obtain ⟨⟨other, mem, apart⟩, recent⟩ := settles item isListed new before old
            rw [(upserts before old).state, (upserts before old).lastUse,
              if_neg fun all => apart (all other mem)]
            exact ⟨rfl, recent⟩
    have kept : ShownSince contentOf repo item.name now onward := by
      refine run.invariant ?_ fun _ _ _ shown keeps taken => shown.step keeps taken
      rintro world rfl
      exact first
    exact kept.shows

/-- In every run, a list is reflected exactly when its new skills settle. -/
theorem index_reflects_iff (reachable : ReachableSkills contentOf world)
    (timely : Timely contentOf world (now, .index repo skills))
    (indexed : skillStep (now, .index repo skills) world = some later)
    : Reflects contentOf world later now repo skills ↔ Settles world now repo skills := by
  have shown := index_shown_iff reachable.sound timely indexed
  constructor
  · intro reflects
    exact shown.mp reflects.shown
  · intro settles
    exact ⟨fun _ _ absent found => index_absent indexed absent found, shown.mpr settles,
      fun now' _ => index_again reachable.sound timely indexed now'⟩

def sampleItem : SkillItem where
  name := "flock".toList
  content := ⟨"d".toList, "check the flock".toList, "b0".toList, "src/*.py".toList⟩
  contentSha := "c0".toList

/-- The skill is listed, then not, and then again as it was. -/
def sampleCalls : List (Nat × SkillCall) :=
  [(1, .index "a".toList [sampleItem]), (2, .index "a".toList []),
    (3, .index "a".toList [sampleItem])]

/-- What some of the calls lead to. -/
def sampleWorld (count : Nat) : Option SkillWorld :=
  (sampleCalls.take count).foldlM (fun world call => skillStep call world) .start

theorem index_reflects_iff_sample
    : ∃ later,
        sampleWorld 1 = some later
        ∧ Reflects (fun _ => sampleItem.content) .start later 1 "a".toList [sampleItem] := by
  refine ⟨_, rfl, (index_reflects_iff (.start rfl) ⟨Nat.zero_le _, ?_⟩ rfl).mpr ?_⟩
  · intro repo skills same item mem
    cases same
    rw [List.mem_singleton.mp mem]
  · intro item _ _ row found
    cases found

/-- A skill that is listed again as it was stays archived. -/
theorem index_relisted_archived
    : ∃ world later,
        sampleWorld 2 = some world ∧ sampleWorld 3 = some later
        ∧ ReachableSkills (fun _ => sampleItem.content) world
        ∧ (later.row? "a".toList "flock".toList).map SkillRow.state = some .archived
        ∧ ¬Reflects (fun _ => sampleItem.content) world later 3 "a".toList [sampleItem] := by
  have genuine (skills : List SkillItem) (own : skills = [sampleItem] ∨ skills = [])
      : ∀ item ∈ skills, item.content = sampleItem.content := by
    intro item mem
    rcases own with rfl | rfl
    · rw [List.mem_singleton.mp mem]
    · cases mem
  have first : Timely (fun _ => sampleItem.content) .start (1, .index "a".toList [sampleItem]) :=
    ⟨Nat.zero_le _, fun _ skills same => genuine skills (.inl (by cases same; rfl))⟩
  obtain ⟨listed, taken⟩ : ∃ listed, sampleWorld 1 = some listed := ⟨_, rfl⟩
  have second : Timely (fun _ => sampleItem.content) listed (2, .index "a".toList []) := by
    cases taken
    exact ⟨by decide, fun _ skills same => genuine skills (.inr (by cases same; rfl))⟩
  obtain ⟨world, taken'⟩ : ∃ world, skillStep (2, .index "a".toList []) listed = some world := by
    cases taken
    exact ⟨_, rfl⟩
  have reachable : ReachableSkills (fun _ => sampleItem.content) world :=
    ((Machine.Runs.start rfl).step first taken).step second taken'
  cases taken
  cases taken'
  refine ⟨_, _, rfl, rfl, reachable, by decide +kernel, fun reflects => ?_⟩
  obtain ⟨item, row, -, found, active, -⟩ :=
    reflects.shown sampleItem rfl (fun ⟨old, isListed, _⟩ => by cases isListed) _ (.start rfl)
  cases found
  cases active

end Capture
