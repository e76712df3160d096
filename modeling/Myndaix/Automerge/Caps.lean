import Myndaix.Automerge.Merge
import Myndaix.Interaction.Answers
import Myndaix.Interaction.Executions

/-! The caps on the merges of a day: the counters are local files that are written after GitHub has
answered, and the merges are made by GitHub. The ticks run one after another, under the lock.
-/

namespace Automerge

open Interaction Interaction.Program Text

-- The world of the ticks

/-- The day, the state files, and the merges that were made for the gate, with their authors. -/
structure World where
  day : Nat
  files : Counter → Contents
  merges : List (Nat × Str)

namespace World

def mergedOn (world : World) (day : Nat) : Nat :=
  world.merges.countP (fun merge => merge.1 = day)

def mergedBy (world : World) (day : Nat) (author : Str) : Nat :=
  world.merges.count (day, author)

/-- The counters of the day are at least what was merged on it. -/
structure Counted (world : World) : Prop where
  day : (world.mergedOn world.day : Int) ≤ countOf (world.files (.day world.day))
  author
    : ∀ author,
        (world.mergedBy world.day author : Int)
        ≤ countOf (world.files (.author world.day author))

end World

/-- GitHub answers a merge with whatever comes back, when it has made it and when it has not. A
write that fails can leave anything in its file, and a file may be unreadable for once.
-/
def responds (authorOf : Nat → Str) : (query : Query) → World → Answer query → World → Prop
  | .utcDay, before, day, after => day = before.day ∧ after = before
  | .readCounter counter, before, contents, after =>
      (contents = before.files counter ∨ contents = .unreadable) ∧ after = before
  | .writeCounter counter value, before, written, after =>
      ∃ left,
        (written = true → left = .number value)
        ∧ after = { before with files := Function.update before.files counter left }
  | .mergePut number _, before, _, after =>
      after = before
      ∨ after = { before with merges := (before.day, authorOf number) :: before.merges }
  | .prList, before, listed, after =>
      (∀ prs, listed = some prs → ∀ pr ∈ prs, pr.author = authorOf pr.number) ∧ after = before
  | _, before, _, after => after = before

/-- Between two calls only the day changes: the ticks are the only ones to write the counters. -/
def github (authorOf : Nat → Str) : Setting Query Answer World where
  interferes := fun before after => before.day ≤ after.day
    ∧ after = { before with day := after.day }
  answers := responds authorOf
  permits := fun _ _ => True
  interferes_refl := fun _ => ⟨Nat.le_refl _, rfl⟩
  interferes_trans := fun first second =>
    ⟨Nat.le_trans first.1 second.1, by rw [second.2, first.2]⟩

/-- Nothing is lost between a merge and its counters: a merge that is made is answered as made, and
the files of the caps are written. A file that is unreadable for once counts above the caps.
-/
def Settles (config : Config) : (query : Query) → World → Answer query → World → Prop
  | .mergePut _ _, before, answer, after =>
      after = before ∨ ∃ merge, answer = some merge ∧ merge.merged = true
  | .writeCounter (.day _) _, _, written, _ => written = true
  | .writeCounter (.author _ _) _, _, written, _ => written = true
  | .mkdirState, before, made, _ => made = true ∨ before.Counted
  | .readCounter counter, before, contents, _ =>
      contents = before.files counter
      ∨ config.maxPerDay ≤ overCap ∧ config.maxPerAuthorDay ≤ overCap
  | _, _, _, _ => True

-- What a run keeps

/-- No day and no author is above its cap, nothing is merged in the future, and no counter is
negative.
-/
structure Kept (config : Config) (world : World) : Prop where
  day : ∀ day, world.mergedOn day ≤ config.maxPerDay
  author : ∀ day author, world.mergedBy day author ≤ config.maxPerAuthorDay
  past : ∀ merge ∈ world.merges, merge.1 ≤ world.day
  dayCounter : ∀ day, 0 ≤ countOf (world.files (.day day))
  authorCounter : ∀ day author, 0 ≤ countOf (world.files (.author day author))

/-- The counters of the day may lack so many merges, and those of one author so many. -/
structure Lacks (days own : Nat) (author : Str) (world : World) : Prop where
  day : (world.mergedOn world.day : Int) ≤ countOf (world.files (.day world.day)) + days
  author
    : ∀ other,
        (world.mergedBy world.day other : Int)
        ≤ countOf (world.files (.author world.day other)) + if other = author then own else 0

/-- One more merge by the author stays within the caps of the day. -/
structure Room (config : Config) (author : Str) (world : World) : Prop where
  day : world.mergedOn world.day + 1 ≤ config.maxPerDay
  author : world.mergedBy world.day author + 1 ≤ config.maxPerAuthorDay

/-- Days pass, and the merges and their counters stay as they are. -/
structure Moves (before after : World) : Prop where
  day : before.day ≤ after.day
  merges : after.merges = before.merges
  dayCounter : ∀ day, after.files (.day day) = before.files (.day day)
  authorCounter
    : ∀ day author, after.files (.author day author) = before.files (.author day author)

/-- A call that neither merges nor writes a counter of the caps. -/
def Idle : Query → Prop
  | .mergePut _ _ | .writeCounter (.day _) _ | .writeCounter (.author _ _) _ => False
  | _ => True

/-- The world of the runs that lose nothing, where the caps are to be kept at every call. -/
def settled (config : Config) (authorOf : Nat → Str) : Setting Query Answer World :=
  { github authorOf with
    answers := fun query before answer after =>
      responds authorOf query before answer after ∧ Settles config query before answer after
    permits := fun world _ => Kept config world }

variable {query : Query} {count : Int}

section Keeping

variable {config : Config} {authorOf : Nat → Str} {author : Str} {before after world : World}

theorem World.mergedBy_le (world : World) (day : Nat) (author : Str)
    : world.mergedBy day author ≤ world.mergedOn day := by
  unfold World.mergedBy World.mergedOn List.count
  refine List.countP_mono_left fun merge _ same => ?_
  rw [beq_iff_eq.mp same]
  exact decide_eq_true rfl

/-- Nothing was merged after the last day of a merge. -/
theorem World.mergedOn_future {day later : Nat} (past : ∀ merge ∈ world.merges, merge.1 ≤ day)
    (isLater : day < later)
    : world.mergedOn later = 0 := by
  refine List.countP_eq_zero.mpr fun merge mem same => ?_
  have before := past merge mem
  have onDay := of_decide_eq_true same
  omega

theorem World.mergedBy_future {day later : Nat} (past : ∀ merge ∈ world.merges, merge.1 ≤ day)
    (isLater : day < later) (author : Str)
    : world.mergedBy later author = 0 :=
  Nat.le_zero.mp (World.mergedOn_future past isLater ▸ world.mergedBy_le later author)

theorem Moves.mergedOn (moves : Moves before after) (day : Nat)
    : after.mergedOn day = before.mergedOn day := by
  unfold World.mergedOn
  rw [moves.merges]

theorem Moves.mergedBy (moves : Moves before after) (day : Nat) (author : Str)
    : after.mergedBy day author = before.mergedBy day author := by
  unfold World.mergedBy
  rw [moves.merges]

theorem interferes_moves (moved : (settled config authorOf).interferes before after)
    : Moves before after := by
  have same := moved.2
  have day := moved.1
  rw [same]
  exact { day := day, merges := rfl, dayCounter := fun _ => rfl, authorCounter := fun _ _ => rfl }

theorem Idle.moves (idle : Idle query) {answer : Answer query}
    (responded : responds authorOf query before answer after)
    : Moves before after := by
  have unchanged (same : after = before) : Moves before after :=
    { day := same ▸ Nat.le_refl _, merges := same ▸ rfl, dayCounter := fun _ => same ▸ rfl,
      authorCounter := fun _ _ => same ▸ rfl }
  cases query with
  | utcDay => exact unchanged responded.2
  | readCounter counter => exact unchanged responded.2
  | prList => exact unchanged responded.2
  | mergePut number head => exact idle.elim
  | writeCounter counter value =>
      cases counter with
      | day => exact idle.elim
      | author => exact idle.elim
      | attempts number head =>
          obtain ⟨left, _, rfl⟩ := responded
          exact
            { day := Nat.le_refl _
              merges := rfl
              dayCounter := fun day => by simp
              authorCounter := fun day author => by simp }
  | _ => exact unchanged responded

theorem Kept.moves (kept : Kept config before) (moves : Moves before after)
    : Kept config after where
  day := fun day => moves.mergedOn day ▸ kept.day day
  author := fun day author => moves.mergedBy day author ▸ kept.author day author
  past := fun merge mem =>
    Nat.le_trans (kept.past merge (moves.merges ▸ mem)) moves.day
  dayCounter := fun day => moves.dayCounter day ▸ kept.dayCounter day
  authorCounter := fun day author => moves.authorCounter day author ▸ kept.authorCounter day author

/-- On a new day nothing is lacking. -/
theorem Lacks.moves {days own : Nat} (lacks : Lacks days own author before)
    (kept : Kept config before) (moves : Moves before after)
    : Lacks days own author after := by
  rcases Nat.eq_or_lt_of_le moves.day with same | isLater
  · constructor
    · rw [moves.mergedOn, moves.dayCounter, ← same]
      exact lacks.day
    · intro other
      rw [moves.mergedBy, moves.authorCounter, ← same]
      exact lacks.author other
  · have keptAfter := kept.moves moves
    constructor
    · rw [moves.mergedOn, World.mergedOn_future kept.past isLater]
      have positive := keptAfter.dayCounter after.day
      omega
    · intro other
      rw [moves.mergedBy, World.mergedBy_future kept.past isLater]
      have positive := keptAfter.authorCounter after.day other
      split <;> omega

/-- On a new day there is room if there is any at all. -/
theorem Moves.dayRoom (moves : Moves before after)
    (room : before.mergedOn before.day + 1 ≤ config.maxPerDay) (kept : Kept config before)
    : after.mergedOn after.day + 1 ≤ config.maxPerDay := by
  rw [moves.mergedOn]
  rcases Nat.eq_or_lt_of_le moves.day with same | isLater
  · rw [← same]
    exact room
  · rw [World.mergedOn_future kept.past isLater]
    omega

theorem Room.moves (room : Room config author before) (kept : Kept config before)
    (moves : Moves before after)
    : Room config author after := by
  refine { day := moves.dayRoom room.day kept, author := ?_ }
  have ofAuthor := room.author
  rw [moves.mergedBy]
  rcases Nat.eq_or_lt_of_le moves.day with same | isLater
  · rw [← same]
    exact ofAuthor
  · rw [World.mergedBy_future kept.past isLater]
    omega

theorem counted_iff : world.Counted ↔ Lacks 0 0 author world := by
  constructor
  · intro counted
    exact { day := by simpa using counted.day,
            author := fun other => by simpa using counted.author other }
  · intro lacks
    exact { day := by simpa using lacks.day,
            author := fun other => by simpa using lacks.author other }

theorem Lacks.weaken {days own : Nat} (lacks : Lacks 0 0 author world)
    : Lacks days own author world := by
  have ofDay := lacks.day
  constructor
  · omega
  · intro other
    have ofAuthor := lacks.author other
    split at ofAuthor <;> split <;> omega

end Keeping

-- Rules

/-- An assertion under which the caps are kept, and which days and idle calls leave alone. -/
structure Lasting (config : Config) (holds : World → Prop) : Prop where
  kept : ∀ {world}, holds world → Kept config world
  moves : ∀ {before after}, holds before → Moves before after → holds after

section Rules

variable {config : Config} {authorOf : Nat → Str} {holds : World → Prop} {world : World}
  {First : Type} {post : First → World → Prop}

/-- A lasting assertion with another that lasts because of it. -/
theorem Lasting.and (lasting : Lasting config holds) {extra : World → Prop}
    (stays
      : ∀ {before after}, holds before → extra before → Moves before after → extra after)
    : Lasting config (fun world => holds world ∧ extra world) where
  kept := fun both => lasting.kept both.1
  moves := fun both moves => ⟨lasting.moves both.1 moves, stays both.1 both.2 moves⟩

/-- A call from an assertion that lasts until then. -/
theorem Lasting.calls (lasting : Lasting config holds) {next : Answer query → Run First}
    (start : holds world)
    (continues
      : ∀ answer before after,
          holds before → responds authorOf query before answer after
          → Settles config query before answer after
          → (next answer).Ensures (settled config authorOf) post after)
    : (ask query >>= next).Ensures (settled config authorOf) post world := by
  refine Ensures.call fun before moved => ?_
  have here := lasting.moves start (interferes_moves moved)
  exact ⟨lasting.kept here, fun answer after answered =>
    continues answer before after here answered.1 answered.2⟩

/-- After an idle call the assertion still holds. -/
theorem Lasting.asks (lasting : Lasting config holds) {next : Answer query → Run First}
    (idle : Idle query) (start : holds world)
    (continues
      : ∀ answer after,
          holds after → (next answer).Ensures (settled config authorOf) post after)
    : (ask query >>= next).Ensures (settled config authorOf) post world :=
  lasting.calls start fun answer _ after here responded _ =>
    continues answer after (lasting.moves here (idle.moves responded))

/-- So it does after a program of idle calls. -/
theorem Lasting.runs (lasting : Lasting config holds) {program : Run First}
    (idles : program.Ensures (anywhere Idle) (fun _ _ => True) ()) (start : holds world)
    : program.Ensures (settled config authorOf) (fun _ later => holds later) world := by
  have within
      : program.Ensures (settled config authorOf) (fun _ later => True ∧ holds later) world :=
    idles.within holds (fun here moved => lasting.moves here (interferes_moves moved))
      (fun _ here => lasting.kept here)
      (fun idle here answered => lasting.moves here (idle.moves answered.1)) start
  exact within.weaken fun _ _ both => both.2

theorem Lasting.ends (lasting : Lasting config holds) {result : First} (start : holds world)
    (ended : ∀ later, holds later → post result later)
    : (pure result : Run First).Ensures (settled config authorOf) post world :=
  Ensures.done fun later moved => ended later (lasting.moves start (interferes_moves moved))

end Rules

-- Idle parts

section IdleParts

variable {config : Config}

/-- A program of idle calls. -/
abbrev Idles {Result : Type} (program : Run Result) : Prop :=
  program.Ensures (anywhere Idle) (fun _ _ => True) ()

theorem bumpAttempt_idles (number : Nat) (head : Str) : Idles (bumpAttempt number head) := by
  refine .asks trivial fun made => ?_
  split
  · refine .asks trivial fun count => .asks trivial fun written => ?_
    split
    · exact .returns trivial
    · exact .returns trivial
  · exact .returns trivial

theorem ciGreen_idles (head : Str) : Idles (ciGreen head) := by
  refine .asks trivial fun answer => ?_
  match answer with
  | none => exact .returns trivial
  | some [] => exact .returns trivial
  | some (run :: runs) => exact .returns trivial

theorem mergeQueue_idles : Idles mergeQueue := by
  refine .asks trivial fun answer => ?_
  match answer with
  | none => exact .returns trivial
  | some rules => exact .returns trivial

theorem recheck_idles (number : Nat) (head base : Str) : Idles (recheck number head base) := by
  refine .asks trivial fun answer => ?_
  match answer with
  | none => exact .returns trivial
  | some view =>
      dsimp only
      split
      · exact .returns trivial
      · split
        · exact .returns trivial
        · refine Ensures.bind mergeQueue_idles fun queued later _ => ?_
          split
          · exact Ensures.returns trivial
          · exact Ensures.bind (ciGreen_idles _) fun ci later _ => Ensures.returns trivial

theorem reviewPass_idles (base head : Str) : Idles (reviewPass config base head) := by
  unfold reviewPass
  split
  · exact .returns trivial
  · refine .asks trivial fun runId => .asks trivial fun made => ?_
    split
    · refine .asks trivial fun rc => ?_
      match rc with
      | none => exact .returns trivial
      | some rc =>
          refine .asks trivial fun verdict => ?_
          match verdict with
          | none => exact .returns trivial
          | some verdict =>
              dsimp only
              split
              · exact .returns trivial
              · split
                · exact .returns trivial
                · exact .returns trivial
    · exact .returns trivial

end IdleParts

-- Counting a merge

/-- The caps are kept, and the counters of the day lack at most so much. -/
structure Owes (config : Config) (days own : Nat) (author : Str) (world : World) : Prop where
  kept : Kept config world
  lacks : Lacks days own author world

/-- Between two calls of the gate: the caps are kept and every merge is counted. -/
structure Sound (config : Config) (world : World) : Prop where
  kept : Kept config world
  counted : world.Counted

/-- Nothing was merged after this day, which is not in the future. -/
structure MergedUntil (day : Nat) (world : World) : Prop where
  until_ : ∀ merge ∈ world.merges, merge.1 ≤ day
  reached : day ≤ world.day

section Charging

variable {config : Config} {authorOf : Nat → Str} {author : Str} {world before after : World}
  {days own day : Nat} {contents : Contents}

theorem lasting_owes : Lasting config (Owes config days own author) where
  kept := Owes.kept
  moves := fun owes moves =>
    { kept := owes.kept.moves moves, lacks := owes.lacks.moves owes.kept moves }

theorem Sound.owes (sound : Sound config world) : Owes config days own author world where
  kept := sound.kept
  lacks := (counted_iff.mp sound.counted).weaken

theorem Owes.sound (owes : Owes config 0 0 author world) : Sound config world where
  kept := owes.kept
  counted := counted_iff.mpr owes.lacks

theorem lasting_sound : Lasting config (Sound config) where
  kept := Sound.kept
  moves := fun sound moves => (lasting_owes.moves (sound.owes : Owes config 0 0 [] _) moves).sound

theorem Kept.mergedUntil (kept : Kept config world) : MergedUntil world.day world where
  until_ := kept.past
  reached := Nat.le_refl _

theorem MergedUntil.moves (merged : MergedUntil day before) (moves : Moves before after)
    : MergedUntil day after where
  until_ := fun merge mem => merged.until_ merge (moves.merges ▸ mem)
  reached := Nat.le_trans merged.reached moves.day

/-- What a file of the caps is read as is at least what it says, or more than a cap. -/
theorem read_bound {counter : Counter}
    (responded : responds authorOf (.readCounter counter) before contents after)
    (settles : Settles config (.readCounter counter) before contents after)
    : countOf contents = countOf (before.files counter)
      ∨ countOf contents = overCap ∧ config.maxPerDay ≤ overCap
        ∧ config.maxPerAuthorDay ≤ overCap := by
  rcases settles with rfl | ⟨ofDay, ofAuthor⟩
  · exact .inl rfl
  · rcases responded.1 with rfl | rfl
    · exact .inl rfl
    · exact .inr ⟨rfl, ofDay, ofAuthor⟩

/-- Before the file of the day is written, with the number to be written in it. -/
structure DayRead (config : Config) (author : Str) (day : Nat) (count : Int) (world : World)
    : Prop where
  owes : Owes config 1 1 author world
  merged : MergedUntil day world
  positive : 0 ≤ count
  enough : (world.mergedOn day : Int) ≤ count ∨ day < world.day

/-- Before the file of the author is written, with the number to be written in it. -/
structure AuthorRead (config : Config) (author : Str) (day : Nat) (count : Int) (world : World)
    : Prop where
  owes : Owes config 0 1 author world
  merged : MergedUntil day world
  positive : 0 ≤ count
  enough : (world.mergedBy day author : Int) ≤ count ∨ day < world.day

theorem lasting_dayRead : Lasting config (DayRead config author day count) where
  kept := fun read => read.owes.kept
  moves := fun read moves =>
    { owes := lasting_owes.moves read.owes moves
      merged := read.merged.moves moves
      positive := read.positive
      enough := read.enough.imp (moves.mergedOn day ▸ ·) (Nat.lt_of_lt_of_le · moves.day) }

theorem lasting_authorRead
    : Lasting config (AuthorRead config author day count) where
  kept := fun read => read.owes.kept
  moves := fun read moves =>
    { owes := lasting_owes.moves read.owes moves
      merged := read.merged.moves moves
      positive := read.positive
      enough := read.enough.imp (moves.mergedBy day author ▸ ·) (Nat.lt_of_lt_of_le · moves.day) }

/-- Writing the file of the day leaves only the author's to be written. -/
theorem DayRead.written (read : DayRead config author day count before)
    : Owes config 0 1 author
        { before with
          files := Function.update before.files (.day day) (.number count) } := by
  obtain ⟨⟨kept, lacks⟩, merged, positive, enough⟩ := read
  constructor
  · refine { day := kept.day, author := kept.author, past := kept.past, dayCounter := ?_,
             authorCounter := ?_ }
    · intro other
      by_cases same : other = day
      · subst same
        simpa [countOf] using positive
      · simpa [same] using kept.dayCounter other
    · intro other someone
      simpa using kept.authorCounter other someone
  · constructor
    · by_cases same : before.day = day
      · subst same
        have enough := enough.resolve_right (Nat.lt_irrefl _)
        simpa [countOf, World.mergedOn] using enough
      · have later := Nat.lt_of_le_of_ne merged.reached (Ne.symm same)
        have none_ := World.mergedOn_future merged.until_ later
        have nonneg := kept.dayCounter before.day
        simp only [World.mergedOn] at none_ ⊢
        simpa [same, none_] using nonneg
    · intro other
      simpa [World.mergedBy] using lacks.author other

/-- Writing the file of the author leaves nothing to be counted. -/
theorem AuthorRead.written (read : AuthorRead config author day count before)
    : Sound config
        { before with
          files := Function.update before.files (.author day author) (.number count) } := by
  obtain ⟨⟨kept, lacks⟩, merged, positive, enough⟩ := read
  constructor
  · refine { day := kept.day, author := kept.author, past := kept.past, dayCounter := ?_,
             authorCounter := ?_ }
    · intro other
      simpa using kept.dayCounter other
    · intro other someone
      by_cases same : Counter.author other someone = Counter.author day author
      · simpa [same, countOf] using positive
      · simpa [Function.update_of_ne same] using kept.authorCounter other someone
  · constructor
    · simpa [World.mergedOn] using lacks.day
    · intro someone
      by_cases same : Counter.author before.day someone = Counter.author day author
      · obtain ⟨sameDay, rfl⟩ := Counter.author.inj same
        subst sameDay
        have enough := enough.resolve_right (Nat.lt_irrefl _)
        simpa [countOf, World.mergedBy] using enough
      · dsimp only
        rw [Function.update_of_ne same]
        by_cases sameAuthor : someone = author
        · subst sameAuthor
          have different : before.day ≠ day := fun sameDay => same (by rw [sameDay])
          have later := Nat.lt_of_le_of_ne merged.reached (Ne.symm different)
          have none_ := World.mergedBy_future merged.until_ later someone
          have nonneg := kept.authorCounter before.day someone
          simp only [World.mergedBy] at none_ ⊢
          simpa [none_] using nonneg
        · simpa [World.mergedBy, sameAuthor] using lacks.author someone

/-- The counters lack so much, and nothing was merged after the day that was asked for. -/
structure Dated (config : Config) (days own : Nat) (author : Str) (day : Nat) (world : World)
    : Prop where
  owes : Owes config days own author world
  merged : MergedUntil day world

theorem lasting_dated : Lasting config (Dated config days own author day) where
  kept := fun dated => dated.owes.kept
  moves := fun dated moves =>
    { owes := lasting_owes.moves dated.owes moves, merged := dated.merged.moves moves }

/-- The number after the one in the file of the day is enough for that day. -/
theorem Dated.dayRead {countedDay : Nat} (dated : Dated config 1 1 author day before)
    (between : day ≤ countedDay ∧ countedDay ≤ before.day)
    (responded : responds authorOf (.readCounter (.day countedDay)) before contents after)
    (settles : Settles config (.readCounter (.day countedDay)) before contents after)
    : DayRead config author day (countOf contents + 1) before := by
  have kept := dated.owes.kept
  have atMost := kept.day day
  have nonneg := kept.dayCounter countedDay
  have lacks := dated.owes.lacks.day
  refine { owes := dated.owes, merged := dated.merged, positive := ?_, enough := ?_ }
  · rcases read_bound responded settles with same | ⟨isOver, _⟩
    · omega
    · rw [isOver, overCap]
      omega
  · rcases Nat.eq_or_lt_of_le dated.merged.reached with today | isLater
    · obtain rfl : countedDay = before.day := by omega
      subst today
      refine .inl ?_
      rcases read_bound responded settles with same | ⟨isOver, ofDay, _⟩
      · omega
      · omega
    · exact .inr isLater

/-- The number after the one in the file of the author is enough for that day. -/
theorem Dated.authorRead (dated : Dated config 0 1 author day before)
    (responded : responds authorOf (.readCounter (.author day author)) before contents after)
    (settles : Settles config (.readCounter (.author day author)) before contents after)
    : AuthorRead config author day (countOf contents + 1) before := by
  have kept := dated.owes.kept
  have atMost := kept.author day author
  have nonneg := kept.authorCounter day author
  have lacks := dated.owes.lacks.author author
  rw [if_pos rfl] at lacks
  refine { owes := dated.owes, merged := dated.merged, positive := ?_, enough := ?_ }
  · rcases read_bound responded settles with same | ⟨isOver, _⟩
    · omega
    · rw [isOver, overCap]
      omega
  · rcases Nat.eq_or_lt_of_le dated.merged.reached with today | isLater
    · subst today
      refine .inl ?_
      rcases read_bound responded settles with same | ⟨isOver, _, ofAuthor⟩
      · omega
      · omega
    · exact .inr isLater

/-- Charging counts the merge that is still to be counted. -/
theorem charge_settled (owes : Owes config 1 1 author world)
    : (charge author).Ensures (settled config authorOf) (fun _ later => Sound config later)
        world := by
  refine lasting_owes.calls owes fun made before after owes same settles => ?_
  obtain rfl : after = before := same
  split
  · refine lasting_owes.calls owes fun day before after owes responded _ => ?_
    obtain ⟨today, rfl⟩ := responded
    have dated : Dated config 1 1 author day after :=
      { owes := owes, merged := today ▸ owes.kept.mergedUntil }
    refine lasting_dated.calls dated fun countedDay before after dated responded _ => ?_
    obtain ⟨today, rfl⟩ := responded
    have between : Dated config 1 1 author day after ∧ day ≤ countedDay ∧ countedDay ≤ after.day :=
      ⟨dated, today ▸ dated.merged.reached, today ▸ Nat.le_refl _⟩
    have lasting
        : Lasting config (fun world =>
            Dated config 1 1 author day world ∧ day ≤ countedDay ∧ countedDay ≤ world.day) :=
      { kept := fun both => both.1.owes.kept
        moves := fun both moves =>
          ⟨lasting_dated.moves both.1 moves, both.2.1, Nat.le_trans both.2.2 moves.day⟩ }
    refine lasting.calls between fun count before after both responded settles => ?_
    have read := both.1.dayRead both.2 responded settles
    obtain ⟨_, rfl⟩ := responded
    refine lasting_dayRead.calls read fun written before after read responded settles => ?_
    obtain rfl : written = true := settles
    obtain ⟨left, isNumber, rfl⟩ := responded
    obtain rfl := isNumber rfl
    refine lasting_owes.calls read.written fun day before after owes responded _ => ?_
    obtain ⟨today, rfl⟩ := responded
    have dated : Dated config 0 1 author day after :=
      { owes := owes, merged := today ▸ owes.kept.mergedUntil }
    refine lasting_dated.calls dated fun count before after dated responded settles => ?_
    have read := dated.authorRead responded settles
    obtain ⟨_, rfl⟩ := responded
    refine lasting_authorRead.calls read fun written before after read responded settles => ?_
    obtain rfl : written = true := settles
    obtain ⟨left, isNumber, rfl⟩ := responded
    obtain rfl := isNumber rfl
    exact lasting_sound.ends read.written fun later sound => sound
  · have counted := settles.resolve_left (by assumption)
    exact lasting_sound.ends { kept := owes.kept, counted } fun later sound => sound

end Charging

-- The gate within the caps

/-- Every merge is counted, and there is room for one more of the author. -/
structure Roomy (config : Config) (author : Str) (world : World) : Prop where
  sound : Sound config world
  room : Room config author world

section Gate

variable {config : Config} {authorOf : Nat → Str} {pr : PullRequest} {base : Str} {budget : Nat}
  {world before after : World}

theorem lasting_roomy {author : Str} : Lasting config (Roomy config author) where
  kept := fun roomy => roomy.sound.kept
  moves := fun roomy moves =>
    { sound := lasting_sound.moves roomy.sound moves
      room := roomy.room.moves roomy.sound.kept moves }

/-- A merge into the room that there is leaves one merge to be counted. -/
theorem Roomy.merged {author : Str} (roomy : Roomy config author before)
    : Owes config 1 1 author
        { before with merges := (before.day, author) :: before.merges } := by
  obtain ⟨⟨kept, counted⟩, room⟩ := roomy
  have onDay (day : Nat)
      : World.mergedOn { before with merges := (before.day, author) :: before.merges } day
        = before.mergedOn day + if before.day = day then 1 else 0 := by
    simp [World.mergedOn, List.countP_cons]
  have byAuthor (day : Nat) (other : Str)
      : World.mergedBy { before with merges := (before.day, author) :: before.merges } day other
        = before.mergedBy day other + if before.day = day ∧ author = other then 1 else 0 := by
    simp [World.mergedBy, List.count_cons, Prod.mk.injEq]
  have ofDay := room.day
  have ofAuthor := room.author
  refine ⟨{ day := ?_, author := ?_, past := ?_, dayCounter := kept.dayCounter,
            authorCounter := kept.authorCounter }, ?_, ?_⟩
  · intro day
    rw [onDay]
    have atMost := kept.day day
    split
    · rename_i same
      subst same
      exact ofDay
    · exact atMost
  · intro day other
    rw [byAuthor]
    have atMost := kept.author day other
    split
    · rename_i same
      obtain ⟨rfl, rfl⟩ := same
      exact ofAuthor
    · exact atMost
  · intro merge mem
    rcases List.mem_cons.mp mem with rfl | mem
    · exact Nat.le_refl _
    · exact kept.past merge mem
  · rw [onDay, if_pos rfl]
    have isCounted := counted.day
    push_cast
    omega
  · intro other
    rw [byAuthor]
    have isCounted := counted.author other
    dsimp only
    by_cases same : other = author
    · subst same
      rw [if_pos ⟨rfl, rfl⟩, if_pos rfl]
      push_cast
      omega
    · rw [if_neg (fun both => same both.2.symm), if_neg same]
      simpa using isCounted

theorem lasting_ready {author : Str}
    : Lasting config (fun world =>
        Sound config world ∧ (config.dryRun = false → Room config author world)) :=
  lasting_sound.and fun sound room moves live => (room live).moves sound.kept moves

theorem ends_settled {Result : Type} {result : Result} (sound : Sound config world)
    : (pure result : Run Result).Ensures (settled config authorOf)
        (fun _ later => Sound config later) world :=
  lasting_sound.ends sound fun _ sound => sound

/-- A merge is made only into room, and is counted before anything else. -/
theorem mergeStep_settled (authored : pr.author = authorOf pr.number)
    (sound : Sound config world) (room : config.dryRun = false → Room config pr.author world)
    : (mergeStep config pr base budget).Ensures (settled config authorOf)
        (fun _ later => Sound config later) world := by
  unfold mergeStep
  dsimp only
  split
  · split
    · exact lasting_sound.asks trivial sound fun _ after sound => ends_settled sound
    · exact ends_settled sound
  · rename_i dry
    split
    · refine lasting_sound.asks trivial sound fun _ after sound => ?_
      exact Ensures.bind (charge_settled sound.owes) fun _ later sound => ends_settled sound
    · have roomy : Roomy config pr.author world := ⟨sound, room (Bool.eq_false_iff.mpr dry)⟩
      refine Ensures.bind (lasting_roomy.runs (recheck_idles _ _ _) roomy)
        fun passed later roomy => ?_
      split
      · refine lasting_roomy.calls roomy fun answer before after roomy responded settles => ?_
        have owes
            : Owes config 1 1 pr.author after
              ∧ (after ≠ before → ∃ merge, answer = some merge ∧ merge.merged = true) := by
          rcases responded with rfl | rfl
          · exact ⟨roomy.sound.owes, fun other => absurd rfl other⟩
          · rw [← authored]
            exact ⟨roomy.merged, fun other => settles.resolve_left (authored ▸ other)⟩
        by_cases same : after = before
        · subst same
          match answer with
          | none => exact ends_settled roomy.sound
          | some merge =>
              dsimp only
              split
              · exact Ensures.bind (charge_settled owes.1) fun _ later sound => ends_settled sound
              · exact ends_settled roomy.sound
        · obtain ⟨merge, rfl, isMerged⟩ := owes.2 same
          dsimp only
          rw [if_pos isMerged]
          exact Ensures.bind (charge_settled owes.1) fun _ later sound => ends_settled sound
      · exact ends_settled roomy.sound

theorem reviewStep_settled (authored : pr.author = authorOf pr.number)
    (sound : Sound config world) (room : config.dryRun = false → Room config pr.author world)
    : (reviewStep config pr base budget).Ensures (settled config authorOf)
        (fun _ later => Sound config later) world := by
  refine Ensures.bind (lasting_ready.runs (reviewPass_idles _ _) ⟨sound, room⟩)
    fun verdict later ready => ?_
  split
  · refine Ensures.bind (lasting_sound.runs (bumpAttempt_idles _ _) ready.1)
      fun attempts later sound => ?_
    split
    · exact lasting_sound.ends sound fun later sound => sound
    · exact lasting_sound.ends sound fun later sound => sound
  · split
    · exact lasting_sound.ends ready.1 fun later sound => sound
    · exact mergeStep_settled authored ready.1 ready.2

/-- Below the cap on a counter there is room for one more, on its day and on each later one. -/
theorem room_below (merged : Nat → Nat) {cap day now : Nat} {count read : Int}
    (reached : day ≤ now) (counted : day = now → (merged day : Int) ≤ count)
    (future : day < now → merged now = 0) (positive : 0 ≤ count)
    (reads : read = count ∨ read = overCap ∧ (cap : Int) ≤ overCap) (below : ¬(cap : Int) ≤ read)
    : merged now + 1 ≤ cap := by
  have same : read = count := reads.resolve_right fun both => below (both.1 ▸ both.2)
  rcases Nat.eq_or_lt_of_le reached with today | isLater
  · have atMost := counted today
    subst today
    omega
  · rw [future isLater]
    omega

/-- The counters that are below the caps leave room for the author. -/
theorem boundsStep_settled (authored : pr.author = authorOf pr.number)
    (sound : Sound config world)
    : (boundsStep config pr base budget).Ensures (settled config authorOf)
        (fun _ later => Sound config later) world := by
  have lastingDay {day : Nat}
      : Lasting config (fun world => Sound config world ∧ MergedUntil day world) :=
    lasting_sound.and fun _ merged moves => merged.moves moves
  have lastingRoom
      : Lasting config (fun world =>
          Sound config world ∧ world.mergedOn world.day + 1 ≤ config.maxPerDay) :=
    lasting_sound.and fun sound room moves => moves.dayRoom room sound.kept
  have lastingBoth {day : Nat}
      : Lasting config (fun world =>
          (Sound config world ∧ world.mergedOn world.day + 1 ≤ config.maxPerDay)
          ∧ MergedUntil day world) :=
    lastingRoom.and fun _ merged moves => merged.moves moves
  unfold boundsStep
  split
  · exact ends_settled sound
  · split
    · rename_i dry
      have dryOnly {world : World} (wet : config.dryRun = false) : Room config pr.author world :=
        absurd dry (by rw [wet]; exact Bool.false_ne_true)
      split
      · refine lasting_sound.asks trivial sound fun shadowed after sound => ?_
        split
        · exact ends_settled sound
        · exact reviewStep_settled authored sound dryOnly
      · exact reviewStep_settled authored sound dryOnly
    · refine lasting_sound.calls sound fun day before after sound responded _ => ?_
      obtain ⟨rfl, rfl⟩ := responded
      refine lastingDay.calls ⟨sound, sound.kept.mergedUntil⟩
        fun count before after both responded settles => ?_
      obtain ⟨sound, merged⟩ := both
      have reads := read_bound responded settles
      obtain ⟨_, rfl⟩ := responded
      split
      · exact ends_settled sound
      · rename_i below
        have dayRoom : after.mergedOn after.day + 1 ≤ config.maxPerDay :=
          room_below after.mergedOn merged.reached (fun today => today ▸ sound.counted.day)
            (World.mergedOn_future merged.until_) (sound.kept.dayCounter _)
            (reads.imp_right fun isOver => ⟨isOver.1, isOver.2.1⟩) below
        refine lastingRoom.calls ⟨sound, dayRoom⟩ fun day before after both responded _ => ?_
        obtain ⟨rfl, rfl⟩ := responded
        refine lastingBoth.calls ⟨both, both.1.kept.mergedUntil⟩
          fun count before after both responded settles => ?_
        obtain ⟨⟨sound, dayRoom⟩, merged⟩ := both
        have reads := read_bound responded settles
        obtain ⟨_, rfl⟩ := responded
        split
        · exact ends_settled sound
        · rename_i below
          refine reviewStep_settled authored sound fun _ => { day := dayRoom, author := ?_ }
          exact room_below (fun day => after.mergedBy day pr.author) merged.reached
            (fun today => today ▸ sound.counted.author pr.author)
            (fun isLater => World.mergedBy_future merged.until_ isLater pr.author)
            (sound.kept.authorCounter _ _)
            (reads.imp_right fun isOver => ⟨isOver.1, isOver.2.2⟩) below

/-- Until the bounds, nothing is merged or counted. -/
theorem sizeStep_settled (authored : pr.author = authorOf pr.number)
    (sound : Sound config world)
    : (sizeStep config pr base budget).Ensures (settled config authorOf)
        (fun _ later => Sound config later) world := by
  refine lasting_sound.asks trivial sound fun content after sound => ?_
  match content with
  | none => exact ends_settled sound
  | some content =>
      dsimp only
      split
      · exact ends_settled sound
      · refine lasting_sound.asks trivial sound fun numstat after sound => ?_
        match numstat with
        | none => exact ends_settled sound
        | some numstat =>
            dsimp only
            split
            · exact ends_settled sound
            · refine Ensures.bind (lasting_sound.runs (ciGreen_idles _) sound)
                fun green later sound => ?_
              match green with
              | none => exact ends_settled sound
              | some false => exact ends_settled sound
              | some true => exact boundsStep_settled authored sound

theorem evaluatePr_settled (authored : pr.author = authorOf pr.number)
    (sound : Sound config world)
    : (evaluatePr config pr budget).Ensures (settled config authorOf)
        (fun _ later => Sound config later) world := by
  have diffs {base : Str} {world : World} (sound : Sound config world)
      : (diffStep config pr base budget).Ensures (settled config authorOf)
          (fun _ later => Sound config later) world := by
    refine lasting_sound.asks trivial sound fun out after sound => ?_
    match out with
    | none => exact ends_settled sound
    | some out =>
        dsimp only
        split
        · exact ends_settled sound
        · split
          · exact ends_settled sound
          · exact sizeStep_settled authored sound
  have pins {world : World} (sound : Sound config world)
      : (pinStep config pr budget).Ensures (settled config authorOf)
          (fun _ later => Sound config later) world := by
    refine lasting_sound.asks trivial sound fun fetched after sound => ?_
    split
    · refine lasting_sound.asks trivial sound fun pinned after sound =>
        lasting_sound.asks trivial sound fun main after sound => ?_
      split
      · exact ends_settled sound
      · split
        · exact ends_settled sound
        · refine lasting_sound.asks trivial sound fun base after sound => ?_
          match base with
          | none => exact ends_settled sound
          | some base =>
              dsimp only
              split
              · exact diffs sound
              · exact ends_settled sound
    · exact ends_settled sound
  unfold evaluatePr
  split
  · exact ends_settled sound
  · split
    · exact ends_settled sound
    · split
      · exact ends_settled sound
      · split
        · exact ends_settled sound
        · split
          · exact ends_settled sound
          · refine Ensures.bind (lasting_sound.runs mergeQueue_idles sound)
              fun queued later sound => ?_
            split
            · exact ends_settled sound
            · exact pins sound

/-- By induction on the pull requests that are left. -/
theorem evaluateAll_settled (repo : Repo) {prs : List PullRequest}
    (authored : ∀ pr ∈ prs, pr.author = authorOf pr.number) (sound : Sound config world)
    : (evaluateAll config repo budget prs).Ensures (settled config authorOf)
        (fun _ later => Sound config later) world := by
  induction prs generalizing budget world with
  | nil => exact ends_settled sound
  | cons pr rest ih =>
      have others : ∀ pr ∈ rest, pr.author = authorOf pr.number :=
        fun other mem => authored other (List.mem_cons_of_mem _ mem)
      unfold evaluateAll
      split
      · exact ih others sound
      · refine lasting_sound.asks trivial sound fun prior after sound => ?_
        split
        · exact ih others sound
        · refine Ensures.bind (evaluatePr_settled (authored pr List.mem_cons_self) sound)
            fun evaluated later sound => ?_
          split
          · refine lasting_sound.asks trivial sound fun _ after sound => ?_
            split
            · exact ends_settled sound
            · exact ih others sound
          · split
            · exact ends_settled sound
            · exact ih others sound

/-- A tick that loses nothing keeps the caps at every call, and leaves every merge counted. -/
theorem tick_settled (sound : Sound config world)
    : (tick config).Ensures (settled config authorOf) (fun _ later => Sound config later)
        world := by
  refine lasting_sound.asks trivial sound fun repo after sound => ?_
  match repo with
  | none => exact ends_settled sound
  | some repo =>
      refine lasting_sound.asks trivial sound fun enabled after sound => ?_
      split
      · refine lasting_sound.asks trivial sound fun remaining after sound => ?_
        match remaining with
        | none => exact ends_settled sound
        | some remaining =>
            dsimp only
            split
            · exact ends_settled sound
            · refine lasting_sound.asks trivial sound fun acquired after sound => ?_
              split
              · refine lasting_sound.asks trivial sound fun _ after sound => ?_
                refine lasting_sound.calls sound fun prs before after sound responded _ => ?_
                obtain ⟨authors, rfl⟩ := responded
                match prs with
                | none => exact ends_settled sound
                | some prs => exact evaluateAll_settled repo (authors prs rfl) sound
              · exact ends_settled sound
      · exact ends_settled sound

end Gate

-- Runs of ticks

/-- Nothing is merged yet, and no counter is negative. -/
structure World.Fresh (world : World) : Prop where
  merges : world.merges = []
  positive : ∀ counter, 0 ≤ countOf (world.files counter)

/-- A state in the course of a tick, after ticks that ended or were cut off where that can happen.
-/
def Reached (setting : Setting Query Answer World) (config : Config) (cuttable : World → Prop)
    (start world : World)
    : Prop :=
  ∃ before result,
    Repeats setting (tick config) cuttable start before
    ∧ (tick config).Executes setting before result world

theorem World.Fresh.sound {world : World} (fresh : world.Fresh) (config : Config)
    : Sound config world where
  kept :=
    { day := fun day => by simp [World.mergedOn, fresh.merges]
      author := fun day author => by simp [World.mergedBy, fresh.merges]
      past := by simp [fresh.merges]
      dayCounter := fun day => fresh.positive _
      authorCounter := fun day author => fresh.positive _ }
  counted :=
    { day := by simpa [World.mergedOn, fresh.merges] using fresh.positive _
      author := fun author => by simpa [World.mergedBy, fresh.merges] using fresh.positive _ }

/-- In a run that loses nothing, no day and no author is ever above its cap: every merge that
GitHub made was answered as made, both its counters were written, and no tick was cut off with a
merge of the day uncounted.
-/
theorem caps_count_merges {config : Config} {authorOf : Nat → Str} {start world : World}
    (fresh : start.Fresh)
    (reached : Reached (settled config authorOf) config World.Counted start world)
    : ∀ day,
        world.mergedOn day ≤ config.maxPerDay
        ∧ ∀ author, world.mergedBy day author ≤ config.maxPerAuthorDay := by
  obtain ⟨before, result, repeats, executes⟩ := reached
  have sound : Sound config before :=
    repeats.invariant (fresh.sound config) (fun _ sound => tick_settled sound)
      fun world query counted permitted => { kept := permitted, counted }
  have kept : Kept config world := by
    obtain ⟨_, within⟩ := (tick_settled sound).executed executes
    rcases within with ⟨query, permitted⟩ | ⟨_, ended⟩
    · exact permitted
    · exact ended.kept
  exact fun day => ⟨kept.day day, kept.author day⟩

def sampleStart : World where
  day := 20260101
  files := fun _ => .absent
  merges := []

def sampleHeadOf (number : Nat) : Str :=
  if number = 7 then sampleHead else List.replicate 40 'c'

def sampleAuthorOf (_ : Nat) : Str :=
  "redeyefit".toList

/-- Two pull requests that pass the gate; the answer to the first merge may be lost. -/
def sampleGithub (lost : Bool) : (query : Query) → World → Except Unit (Answer query × World)
  | .utcDay, world => .ok (world.day, world)
  | .readCounter counter, world => .ok (world.files counter, world)
  | .writeCounter counter value, world =>
      .ok (true, { world with files := Function.update world.files counter (.number value) })
  | .mergePut number _, world =>
      .ok (
        if lost ∧ number = 7 then none else some { merged := true, sha := sampleHead },
        { world with merges := (world.day, sampleAuthorOf number) :: world.merges }
      )
  | .prList, world =>
      .ok (some [samplePr, { samplePr with number := 8, headRefOid := sampleHeadOf 8 }], world)
  | .revParsePr number, world => .ok (sampleHeadOf number, world)
  | .prView number, world =>
      .ok (some { headRefOid := sampleHeadOf number, baseRefOid := sampleBase,
                  mergeStateStatus := "CLEAN".toList, state := "OPEN".toList }, world)
  | .readVerdict, world =>
      .ok (some { runId := "am-1".toList, base := sampleBase,
                  head := sampleHeadOf (if world.merges = [] then 7 else 8),
                  verdict := "PASS".toList }, world)
  | query, world => .ok (sampleAnswers query, world)

theorem sampleGithub_responds (lost : Bool) {world : World} {answered : Answer query × World}
    (same : sampleGithub lost query world = .ok answered)
    : responds sampleAuthorOf query world answered.1 answered.2 := by
  cases query <;> cases same
  case utcDay => exact ⟨rfl, rfl⟩
  case readCounter => exact ⟨.inl rfl, rfl⟩
  case writeCounter counter value => exact ⟨_, fun _ => rfl, rfl⟩
  case mergePut number head => exact .inr rfl
  case prList =>
    refine ⟨fun prs isList pr mem => ?_, rfl⟩
    cases isList
    rcases List.mem_cons.mp mem with rfl | mem
    · rfl
    · obtain rfl := List.mem_singleton.mp mem
      rfl
  all_goals rfl

theorem sampleGithub_settles {world : World} {answered : Answer query × World}
    (same : sampleGithub false query world = .ok answered)
    : Settles (sampleConfig false) query world answered.1 answered.2 := by
  cases query <;> cases same
  case mergePut number head => exact .inr ⟨_, rfl, rfl⟩
  case readCounter counter => exact .inl rfl
  case mkdirState => exact .inl rfl
  case writeCounter counter value => cases counter <;> trivial
  all_goals trivial

theorem sampleStart_fresh : sampleStart.Fresh where
  merges := rfl
  positive := fun _ => Int.le_refl 0

/-- Where a tick comes to that is answered by the sample. -/
theorem sample_reached {lost : Bool} {config : Config} {setting : Setting Query Answer World}
    {cuttable : World → Prop}
    (answers
      : ∀ {query world answered},
          sampleGithub lost query world = .ok answered
          → setting.answers query world answered.1 answered.2)
    {last : Nat × World} (ended : (tick config).run (sampleGithub lost) sampleStart = .ok last)
    : Reached setting config cuttable sampleStart last.2 :=
  ⟨sampleStart, some last.1, .start, Executes.of_run answers ended⟩

/-- With every answer received, the second pull request of the author has to wait. -/
theorem sample_caps_count_merges
    : ∃ world : World,
        world.mergedBy 20260101 "redeyefit".toList = 1
        ∧ ∀ day,
            world.mergedOn day ≤ 3 ∧ ∀ author, world.mergedBy day author ≤ 1 := by
  have ran
      : ((tick (sampleConfig false)).run (sampleGithub false) sampleStart).map
          (fun ended => ended.2.mergedBy 20260101 "redeyefit".toList)
        = .ok 1 := by
    decide +kernel
  obtain ⟨last, ended, merged⟩ := exists_of_map_ok ran
  have reached
      : Reached (settled (sampleConfig false) sampleAuthorOf) (sampleConfig false) World.Counted
          sampleStart last.2 :=
    sample_reached
      (fun same => And.intro (sampleGithub_responds false same) (sampleGithub_settles same)) ended
  exact ⟨last.2, merged, caps_count_merges sampleStart_fresh reached⟩

/-- The answer to a merge is lost: GitHub made it, and no counter has it, so the next pull request
of the same author is merged as well on the same day.
-/
theorem lost_answer_exceeds_cap
    : ∃ world,
        Reached (github sampleAuthorOf) (sampleConfig false) (fun _ => True) sampleStart world
        ∧ sampleStart.Fresh
        ∧ (sampleConfig false).maxPerAuthorDay
          < world.mergedBy 20260101 "redeyefit".toList := by
  have ran
      : ((tick (sampleConfig false)).run (sampleGithub true) sampleStart).map
          (fun ended => ended.2.mergedBy 20260101 "redeyefit".toList)
        = .ok 2 := by
    decide +kernel
  obtain ⟨last, ended, merged⟩ := exists_of_map_ok ran
  have reached
      : Reached (github sampleAuthorOf) (sampleConfig false) (fun _ => True) sampleStart
          last.2 :=
    sample_reached (fun same => sampleGithub_responds true same) ended
  have exceeds : (sampleConfig false).maxPerAuthorDay < 2 := Nat.lt_succ_self 1
  exact ⟨last.2, reached, sampleStart_fresh, merged ▸ exceeds⟩

end Automerge
